import SealedLog.Proofs.Session.Office.Steps
import SealedLog.Proofs.Session.Workplace

/-!
# Offices in workspaces

The sessions of a workspace that open directories sit in an office: whatever commands on sessions
do to the workspace is a run of the office.

* `Workspace.Houses`: the sessions of the workspace are those of the office;
* `Workspace.Allows`: commands whose paths and manifests an office takes;
* `Houses.step`, `Houses.run`: commands on sessions come to runs of the office.
-/

namespace SealedLog

open FileSystem Manifest

namespace Office

variable {H : HashFunction} {f f' f'' : Office} {made more : List Founded} {i : String}

theorem Run.single (does : f.Does H i made f') : f.Run H made f' := .step .start does

theorem Run.trans (run : f.Run H made f') (run' : f'.Run H more f'') :
    f.Run H (made ++ more) f'' := by
  induction run' with
  | start => rwa [List.append_nil]
  | step _ does ih =>
    rw [← List.append_assoc]
    exact .step ih does

theorem seats_put (f : Office) (i : String) (files : FileSystem) (seat : Option Seat) :
    (f.put i files seat).seats i = seat :=
  Function.update_self ..

theorem seats_put_of_ne {j : String} (ne : j ≠ i) (f : Office) (files : FileSystem)
    (seat : Option Seat) : (f.put i files seat).seats j = f.seats j :=
  Function.update_of_ne ne ..

end Office

namespace Workspace

variable {H : HashFunction} {w w' : Workspace} {f f' : Office} {made : List Founded}
  {who : String} {m : Member} {key : StoreKey} {c : SessionCommand}

/-- A store that a session of another name has open. -/
def TakenBeside (w : Workspace) (who : String) (key : StoreKey) : Prop :=
  ∃ other m, other ≠ who ∧ w.sessions.lookup other = some m ∧ m.session.place = some key

/-- The sessions of the workspace sit in the office, each under its name and with the store that it
has open. No two have one store open, and no store has a name; and nothing becomes of any tree when
a store is closed. -/
structure Houses (w : Workspace) (f : Office) : Prop where
  files : w.files = f.files
  free : ∀ who, w.sessions.lookup who = none → f.seats who = none
  seated : ∀ who m, w.sessions.lookup who = some m → ∃ attached,
    f.seats who = some ⟨m.session, attached⟩ ∧
      ∀ key, m.session.place = some key → w.stores[key]? = some attached
  apart : ∀ who m key, w.sessions.lookup who = some m → m.session.place = some key →
    ¬ w.TakenBeside who key
  unnamed : w.storeNames = []
  quiet : ∀ attached ∈ w.stores, ∀ fs isShared, attached.close fs isShared = fs

/-- An office takes a session whose manifest stands in nobody's way, and an opening for writing
whose path fits. -/
def Allows (w : Workspace) : SessionCommand → Prop
  | .make _ _ config _ => IsHarmless config.manifestName
  | .openAt uri .readWrite faults refusal =>
    Opening.Fits { uri := w.locate uri, mode := .readWrite, faults := faults, refusal := refusal }
  | _ => True

theorem Allows.of_base (allows : w.Allows c) (same : w'.base = w.base) : w'.Allows c := by
  have located : w'.locate = w.locate := by
    unfold locate
    rw [same]
  unfold Allows at allows ⊢
  rwa [located]

/-! ### What commands on sessions leave -/

/-- The directory of the workspace, the names of its stores and the other sessions are as before. -/
structure Spares (w : Workspace) (who : String) (w' : Workspace) : Prop where
  base : w'.base = w.base
  storeNames : w'.storeNames = w.storeNames
  others : ∀ other, other ≠ who → w'.sessions.lookup other = w.sessions.lookup other

theorem memberStep_keeps (w : Workspace) (who : String) (m : Member) (c : SessionCommand) :
    (w.memberStep H who m c).1.base = w.base ∧
      (w.memberStep H who m c).1.storeNames = w.storeNames := by
  cases c with
  | attach store mode =>
    unfold memberStep
    dsimp only
    cases w.storeNames.lookup store <;> exact ⟨rfl, rfl⟩
  | openAt uri mode faults refusal =>
    unfold memberStep openMember
    dsimp only
    split <;> exact ⟨rfl, rfl⟩
  | call c =>
    unfold memberStep callMember
    dsimp only
    obtain ⟨events, publishers, told⟩ := exists_tell_eq
      ((w.putSessionStore m.session (m.session.call H (w.sessionStore m.session) c).store).putMember
        who { m with session := (m.session.call H (w.sessionStore m.session) c).session })
      m.audience (m.session.call H (w.sessionStore m.session) c).events
    rw [told]
    unfold putSessionStore
    cases m.session.opened <;> exact ⟨rfl, rfl⟩
  | close =>
    unfold memberStep closeMember
    cases m.session.opened <;> exact ⟨rfl, rfl⟩
  | make | drop | info | lookup => exact ⟨rfl, rfl⟩

theorem sessionStep_spares (w : Workspace) (who : String) (c : SessionCommand) :
    w.Spares who (w.sessionStep H who c).1 := by
  obtain ⟨change, isChange, done⟩ := w.sessionStep_withSessions (H := H) who c
  have same := congrArg Prod.fst (done w.sessions rfl)
  have keeps : (w.sessionStep H who c).1.base = w.base ∧
      (w.sessionStep H who c).1.storeNames = w.storeNames := by
    unfold sessionStep
    split
    · split <;> exact ⟨rfl, rfl⟩
    · split
      · exact w.memberStep_keeps ..
      · exact ⟨rfl, rfl⟩
      · exact ⟨rfl, rfl⟩
  refine ⟨keeps.1, keeps.2, fun other ne => ?_⟩
  rw [show (w.sessionStep H who c).1 = _ from same]
  exact isChange.lookup_of_ne ne

theorem sessionStep_of_absent (absent : w.sessions.lookup who = none)
    (other : ∀ nonce policy config audience, c ≠ .make nonce policy config audience) :
    (w.sessionStep H who c).1 = w := by
  unfold sessionStep
  split
  · exact absurd rfl (other _ _ _ _)
  · rw [absent]
    split <;> first | rfl | contradiction

theorem Spares.takenBeside (spares : w.Spares who w') (taken : w'.TakenBeside who key) :
    w.TakenBeside who key := by
  obtain ⟨other, m, ne, there, place⟩ := taken
  exact ⟨other, m, ne, spares.others other ne ▸ there, place⟩

namespace Houses

/-- A session takes its seat again, after anything that leaves the stores of others. -/
theorem put {attached : Attached} {files : FileSystem} (houses : w.Houses f)
    (spares : w.Spares who w') (member : w'.sessions.lookup who = some m)
    (place : ∀ key, m.session.place = some key →
      w'.stores[key]? = some attached ∧ ¬ w.TakenBeside who key)
    (stores : ∀ key, w.TakenBeside who key → w'.stores[key]? = w.stores[key]?)
    (kept : w'.files = files)
    (quiet : ∀ attached ∈ w'.stores, ∀ fs isShared, attached.close fs isShared = fs) :
    w'.Houses (f.put who files (some ⟨m.session, attached⟩)) where
  files := kept
  free other absent := by
    have ne : other ≠ who := by
      rintro rfl
      rw [member] at absent
      cases absent
    rw [Office.seats_put_of_ne ne]
    exact houses.free other (spares.others other ne ▸ absent)
  seated other m' there := by
    by_cases ne : other = who
    · subst ne
      obtain rfl : m = m' := Option.some.inj (member.symm.trans there)
      exact ⟨attached, Office.seats_put .., fun key at' => (place key at').1⟩
    · rw [spares.others other ne] at there
      obtain ⟨attached', seat, at'⟩ := houses.seated other m' there
      refine ⟨attached', (Office.seats_put_of_ne ne ..).trans seat, fun key place' => ?_⟩
      exact (stores key ⟨other, m', ne, there, place'⟩).trans (at' key place')
  apart other m' key there place' taken := by
    by_cases ne : other = who
    · subst ne
      obtain rfl : m = m' := Option.some.inj (member.symm.trans there)
      exact (place key place').2 (spares.takenBeside taken)
    · have there' := spares.others other ne ▸ there
      obtain ⟨third, m'', ne', there'', place''⟩ := taken
      by_cases ne'' : third = who
      · subst ne''
        obtain rfl : m = m'' := Option.some.inj (member.symm.trans there'')
        exact (place key place'').2 ⟨other, m', ne, there', place'⟩
      · exact houses.apart other m' key there' place'
          ⟨third, m'', ne', spares.others third ne'' ▸ there'', place''⟩
  unnamed := spares.storeNames.trans houses.unnamed
  quiet := quiet

/-- A session leaves, if it is there. -/
theorem erase (houses : w.Houses f) (who : String) :
    ({ w with sessions := w.sessions.erase who } : Workspace).Houses (f.put who f.files none) where
  files := houses.files
  free other absent := by
    by_cases ne : other = who
    · subst ne
      exact Office.seats_put ..
    · rw [Office.seats_put_of_ne ne]
      exact houses.free other (Named.lookup_erase_of_ne ne ▸ absent)
  seated other m there := by
    have ne : other ≠ who := by
      rintro rfl
      rw [Named.lookup_erase] at there
      cases there
    rw [Office.seats_put_of_ne ne]
    exact houses.seated other m (Named.lookup_erase_of_ne ne ▸ there)
  apart other m key there place taken := by
    have left : ∀ {name m}, (w.sessions.erase who).lookup name = some m →
        w.sessions.lookup name = some m := by
      intro name m there
      by_cases ne : name = who
      · subst ne
        rw [Named.lookup_erase] at there
        cases there
      · exact Named.lookup_erase_of_ne ne ▸ there
    obtain ⟨third, m', ne, there', place'⟩ := taken
    exact houses.apart other m key (left there) place ⟨third, m', ne, left there', place'⟩
  unnamed := houses.unnamed
  quiet := houses.quiet

theorem run_erase (houses : w.Houses f) (inOrder : f.InOrder H made) (who : String) :
    f.Run H [] (f.put who f.files none) := by
  cases there : w.sessions.lookup who with
  | none =>
    have same : f.put who f.files none = f := by
      rw [Office.put, ← houses.free who there, Function.update_eq_self]
    rw [same]
    exact .start
  | some m =>
    obtain ⟨attached, seat, -⟩ := houses.seated who m there
    have drops := Office.Does.drop (H := H) seat false
    rw [(inOrder.sits who _ seat).close] at drops
    exact .single drops

/-- A session that is made comes in, in the place of the one of its name. -/
theorem make (houses : w.Houses f) (inOrder : f.InOrder H made) {nonce : Nonce}
    {policy : RemovalPolicy} {config : SessionConfig} {audience : AudienceName}
    (harmless : IsHarmless config.manifestName) :
    ∃ more f', f.Run H more f' ∧
      (w.sessionStep H who (.make nonce policy config audience)).1.Houses f' := by
  unfold sessionStep
  dsimp only
  cases w.audience? audience with
  | none => exact ⟨[], f, .start, houses⟩
  | some audience' =>
    let s : Session := { registry := { nonce := nonce, policy := policy }, config := config }
    let left : Workspace := { w with sessions := w.sessions.erase who }
    have spares : left.Spares who (w.putMember who ⟨s, audience', none⟩) :=
      ⟨rfl, rfl, fun other ne =>
        (Named.lookup_put_of_ne ne).trans (Named.lookup_erase_of_ne ne).symm⟩
    have enters := Office.Does.enter (H := H) (s := s) (Office.seats_put f who f.files none) rfl rfl
      harmless
    refine ⟨_, _, (houses.run_erase inOrder who).step enters, ?_⟩
    exact (houses.erase who).put spares (Named.lookup_put ..) (fun key place => nomatch place)
      (fun key _ => rfl) houses.files houses.quiet

/-- A session opens a directory, whatever comes of it. -/
theorem openAt (houses : w.Houses f) (inOrder : f.InOrder H made)
    (member : w.sessions.lookup who = some m) {uri : String} {mode : AccessMode}
    {faults : FaultPlan} {refusal : Option StoreError}
    (allows : w.Allows (.openAt uri mode faults refusal)) :
    ∃ more f', f.Run H more f' ∧
      (w.sessionStep H who (.openAt uri mode faults refusal)).1.Houses f' := by
  have spares := w.sessionStep_spares (H := H) who (.openAt uri mode faults refusal)
  obtain ⟨attached, there, at'⟩ := houses.seated who m member
  let o : Opening := { uri := w.locate uri, mode := mode, faults := faults, refusal := refusal }
  have done : w.sessionStep H who (.openAt uri mode faults refusal) = w.openMember who m o :=
    sessionStep_eq member fun _ _ _ _ same => by cases same
  have fits : o.mode = .readWrite → o.Fits := by
    rintro rfl
    exact allows
  obtain ⟨more, does⟩ := Office.exists_does_openAt inOrder there w.stores.length fits
  refine ⟨more, _, .single does, ?_⟩
  rw [done] at spares ⊢
  unfold openMember at spares ⊢
  dsimp only at spares ⊢
  rw [houses.files] at spares ⊢
  have others : ∀ key, w.TakenBeside who key → key < w.stores.length := by
    rintro key ⟨other, m', -, there', place⟩
    obtain ⟨attached', -, at''⟩ := houses.seated other m' there'
    exact (List.getElem?_eq_some_iff.1 (at'' key place)).1
  cases answer : (m.session.openAt f.files w.stores.length o).answer with
  | error e =>
    rw [answer] at spares
    apply houses.put spares (Named.lookup_put ..)
    · intro key place
      dsimp only at place
      rw [Session.openAt_eq_error answer] at place
      exact ⟨at' key place, houses.apart who m key member place⟩
    · exact fun key _ => rfl
    · rfl
    · exact houses.quiet
  | ok attached' =>
    rw [answer] at spares
    obtain ⟨-, o', number, session⟩ := Session.openAt_eq_ok answer
    have sits := (does.effect inOrder).sits _ (Office.seats_put ..)
    rw [answer] at sits
    apply houses.put spares (Named.lookup_put ..)
    · intro key place
      dsimp only at place
      rw [session] at place
      obtain rfl : o'.store = key := Option.some.inj place
      rw [number]
      exact ⟨List.getElem?_concat_length, fun taken => Nat.lt_irrefl _ (others _ taken)⟩
    · exact fun key taken => List.getElem?_append_left (others key taken)
    · rfl
    · intro a mem
      rcases List.mem_append.1 mem with old | new
      · exact houses.quiet a old
      · rw [List.mem_singleton.1 new]
        exact sits.2.close

/-- A session is asked something. -/
theorem call (houses : w.Houses f) (inOrder : f.InOrder H made)
    (member : w.sessions.lookup who = some m) (c : SessionCall) :
    ∃ f', f.Run H [] f' ∧ (w.sessionStep H who (.call c)).1.Houses f' := by
  have spares := w.sessionStep_spares (H := H) who (.call c)
  obtain ⟨attached, there, at'⟩ := houses.seated who m member
  have does := Office.Does.call (H := H) there c
  have sits := ((does.effect inOrder).sits _ (Office.seats_put ..)).2
  refine ⟨_, .single does, ?_⟩
  cases place : m.session.place with
  | some key =>
    have seats : w.Seats who m key (f.desk ⟨m.session, attached⟩) :=
      ⟨member, place, houses.files, at' key place⟩
    obtain ⟨seats', stores, -⟩ := perform_call (H := H) seats c
    apply houses.put spares seats'.member
    · intro key' place'
      obtain rfl : key = key' := Option.some.inj (seats'.place.symm.trans place')
      exact ⟨seats'.attached, houses.apart who m key member place⟩
    · intro key' taken
      have ne : key ≠ key' := by
        rintro rfl
        exact houses.apart who m key member place taken
      rw [show (w.sessionStep H who (.call c)).1.stores = _ from stores]
      exact List.getElem?_set_ne ne
    · exact seats'.files
    · intro a mem
      rw [show (w.sessionStep H who (.call c)).1.stores = _ from stores] at mem
      rcases List.mem_or_eq_of_mem_set mem with old | rfl
      · exact houses.quiet a old
      · exact sits.close
  | none =>
    -- a closed session is asked for nothing, and has no store
    have closed : m.session.opened = none := Option.map_eq_none_iff.1 place
    have done : w.sessionStep H who (.call c) = w.callMember H who m c :=
      sessionStep_eq member fun _ _ _ _ same => by cases same
    rw [done] at spares ⊢
    unfold callMember putSessionStore at spares ⊢
    rw [closed] at spares ⊢
    dsimp only at spares ⊢
    obtain ⟨events, publishers, told⟩ := exists_tell_eq (w.putMember who
      { m with session := (m.session.call H (w.sessionStore m.session) c).session }) m.audience
      (m.session.call H (w.sessionStore m.session) c).events
    rw [told] at spares ⊢
    obtain ⟨-, none⟩ := (inOrder.sits who _ there).fresh closed
    have session : ((f.desk ⟨m.session, attached⟩).call H c).session = m.session :=
      Session.call_of_closed closed ..
    have kept : ((f.desk ⟨m.session, attached⟩).call H c).files = f.files :=
      congrArg Prod.snd (Attached.save_of_no_file none f.files _)
    rw [kept, session]
    rw [Session.call_of_closed closed] at spares ⊢
    apply houses.put spares (Named.lookup_put ..)
    · intro key place'
      cases place.symm.trans place'
    · exact fun key _ => rfl
    · exact houses.files
    · exact houses.quiet

/-- A session is closed, if it is open. -/
theorem close (houses : w.Houses f) (inOrder : f.InOrder H made)
    (member : w.sessions.lookup who = some m) :
    ∃ f', f.Run H [] f' ∧ (w.sessionStep H who .close).1.Houses f' := by
  have spares := w.sessionStep_spares (H := H) who .close
  obtain ⟨attached, there, at'⟩ := houses.seated who m member
  cases place : m.session.place with
  | some key =>
    have does := Office.Does.close (H := H) there false
    rw [inOrder.close there] at does
    have seats : w.Seats who m key (f.desk ⟨m.session, attached⟩) :=
      ⟨member, place, houses.files, at' key place⟩
    obtain ⟨files, member', stores, -⟩ := perform_close (H := H) seats
    have gone : (f.desk ⟨m.session, attached⟩).close.session.place = none := by
      obtain ⟨o, opened, -⟩ := Option.map_eq_some_iff.1 place
      rw [Desk.close, Office.desk, Session.close_of_opened opened]
      rfl
    refine ⟨_, .single does, houses.put spares member' ?_ ?_ files ?_⟩
    · intro key' place'
      cases gone.symm.trans place'
    · intro key' taken
      have ne : key ≠ key' := by
        rintro rfl
        exact houses.apart who m key member place taken
      rw [show (w.sessionStep H who .close).1.stores = _ from stores]
      exact List.getElem?_set_ne ne
    · intro a mem
      rw [show (w.sessionStep H who .close).1.stores = _ from stores] at mem
      rcases List.mem_or_eq_of_mem_set mem with old | rfl
      · exact houses.quiet a old
      · exact inOrder.close there
  | none =>
    have closed : m.session.opened = none := Option.map_eq_none_iff.1 place
    have done : w.sessionStep H who .close = w.closeMember who m :=
      sessionStep_eq member fun _ _ _ _ same => by cases same
    refine ⟨f, .start, ?_⟩
    rw [done]
    unfold closeMember
    rw [closed]
    exact houses

/-- **Whatever a command does to its session is a run of the office.** -/
theorem sessionStep (houses : w.Houses f) (inOrder : f.InOrder H made) (who : String)
    (allows : w.Allows c) :
    ∃ more f', f.Run H more f' ∧ (w.sessionStep H who c).1.Houses f' := by
  by_cases makes : ∃ nonce policy config audience, c = .make nonce policy config audience
  · obtain ⟨nonce, policy, config, audience, rfl⟩ := makes
    exact houses.make inOrder allows
  have other : ∀ nonce policy config audience, c ≠ .make nonce policy config audience :=
    fun nonce policy config audience same => makes ⟨nonce, policy, config, audience, same⟩
  cases member : w.sessions.lookup who with
  | none =>
    rw [sessionStep_of_absent member other]
    exact ⟨[], f, .start, houses⟩
  | some m =>
    cases c with
    | make nonce policy config audience => exact absurd rfl (other _ _ _ _)
    | attach store mode =>
      -- no store has a name
      have done : (w.sessionStep H who (.attach store mode)).1 = w := by
        rw [sessionStep_eq member other, memberStep, houses.unnamed]
        rfl
      rw [done]
      exact ⟨[], f, .start, houses⟩
    | openAt uri mode faults refusal => exact houses.openAt inOrder member allows
    | call c => exact ⟨[], houses.call inOrder member c⟩
    | close => exact ⟨[], houses.close inOrder member⟩
    | drop =>
      rw [sessionStep_eq member other]
      exact ⟨[], _, houses.run_erase inOrder who, houses.erase who⟩
    | info | lookup =>
      rw [sessionStep_eq member other]
      exact ⟨[], f, .start, houses⟩

/-- A store that nobody uses any more is closed, and nothing becomes of the tree. -/
theorem closeStore (houses : w.Houses f) (key : StoreKey) :
    (w.closeStore key).Houses f ∧ (w.closeStore key).base = w.base := by
  unfold Workspace.closeStore
  dsimp only
  split_ifs with used
  · exact ⟨houses, rfl⟩
  have quiet : ∀ isShared, (w.attachedAt key).close w.files isShared = w.files := by
    intro isShared
    rw [attachedAt, List.getD_eq_getElem?_getD]
    cases there : w.stores[key]? with
    | none => rfl
    | some attached => exact houses.quiet _ (List.mem_of_getElem? there) ..
  have unused : ∀ who m key', w.sessions.lookup who = some m → m.session.place = some key' →
      key ≠ key' := by
    rintro who m _ there place rfl
    refine used (Bool.or_eq_true_iff.2 (.inr (Bool.or_eq_true_iff.2 (.inr ?_))))
    exact List.any_eq_true.2 ⟨_, Named.mem_of_lookup there, beq_iff_eq.2 place⟩
  refine ⟨⟨(quiet _).trans houses.files, houses.free, fun who m there => ?_, houses.apart,
    houses.unnamed, fun a mem => ?_⟩, rfl⟩
  · obtain ⟨attached, seat, at'⟩ := houses.seated who m there
    exact ⟨attached, seat, fun key' place =>
      (List.getElem?_set_ne (unused who m key' there place)).trans (at' key' place)⟩
  · rcases List.mem_or_eq_of_mem_set mem with old | rfl
    · exact houses.quiet a old
    · exact Attached.close_of_no_log rfl

theorem closeStores (houses : w.Houses f) :
    w.closeStores.Houses f ∧ w.closeStores.base = w.base := by
  refine List.foldlRecOn (motive := fun w' : Workspace => w'.Houses f ∧ w'.base = w.base) _ _
    ⟨houses, rfl⟩ ?_
  rintro w' ⟨houses', same⟩ key -
  obtain ⟨houses'', same'⟩ := houses'.closeStore key
  exact ⟨houses'', same'.trans same⟩

theorem step (houses : w.Houses f) (inOrder : f.InOrder H made) (who : String)
    (allows : w.Allows c) : ∃ more f', f.Run H more f' ∧ (w.step H (.session who c)).1.Houses f' ∧
      (w.step H (.session who c)).1.base = w.base := by
  obtain ⟨more, f', run, houses'⟩ := houses.sessionStep inOrder who allows
  obtain ⟨houses'', same⟩ := houses'.closeStores
  exact ⟨more, f', run, houses'', same.trans (w.sessionStep_spares who c).base⟩

/-- **Commands on sessions come to a run of the office.** -/
theorem run (houses : w.Houses f) (inOrder : f.InOrder H made)
    {commands : List (String × SessionCommand)} (allows : ∀ c ∈ commands, w.Allows c.2) :
    ∃ more f', f.Run H more f' ∧
      (w.run H (commands.map fun c => .session c.1 c.2)).1.Houses f' := by
  induction commands generalizing w f made with
  | nil => exact ⟨[], f, .start, houses⟩
  | cons c commands ih =>
    obtain ⟨more, f', run, houses', same⟩ :=
      houses.step inOrder c.1 (allows c List.mem_cons_self)
    obtain ⟨rest, f'', run', houses''⟩ := ih houses' (run.continues inOrder).1
      fun c mem => (allows c (List.mem_cons_of_mem _ mem)).of_base same
    exact ⟨more ++ rest, f'', run.trans run', houses''⟩

end Houses

/-- A workspace in which nothing was done yet but that there is a tree is an empty office. -/
theorem houses_of_bare {base : Path} {files : FileSystem} :
    ({ base := base, files := files } : Workspace).Houses ⟨files, fun _ => none⟩ where
  files := rfl
  free _ _ := rfl
  seated _ _ there := nomatch there
  apart _ _ _ there := nomatch there
  unnamed := rfl
  quiet _ mem := nomatch mem

end Workspace

end SealedLog

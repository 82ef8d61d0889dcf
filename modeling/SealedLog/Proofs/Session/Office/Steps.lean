import SealedLog.Proofs.Session.Office

/-!
# What becomes of an office

Whatever a session does, it disturbs no backing file but the one that it has made and writes, and
there it only adds rows.

* `Office.effect_of_found`, `effect_of_look`, `effect_of_refused`: opening a directory;
  `exists_does_openAt`: every opening is one of these;
* `Office.effect_of_call`, `effect_of_close`: a session at work, and at its end;
* `Does.effect`, `Run.continues`: the invariant holds along every run, in which no backing file
  loses a row.
-/

namespace SealedLog

open FileSystem Manifest

variable {H : HashFunction} {f f' : Office} {fs : FileSystem} {made more : List Founded}
  {m : Founded} {i : String} {s : Seat}

/-- A database that was opened to read is open for nothing else. -/
theorem FileSystem.database?_of_openStore {fs' : FileSystem} {p : Path} {a : Attached}
    (opens : fs.openStore p .readOnly = (fs', .ok a)) :
    ∃ location, a.database? = some (location, .readOnly) := by
  cases h : fs.findDatabase p .readOnly with
  | none =>
    rw [openStore, h] at opens
    obtain ⟨reads, -⟩ := openPrivate_eq_ok (Prod.mk.inj opens).2
    cases reads
  | some found =>
    obtain ⟨fs₁, location, id⟩ := found
    obtain rfl : fs₁ = fs := findDatabase_reading h
    obtain ⟨c₀, -, mode, opened⟩ := openStore_of_found h
    rw [opened] at opens
    obtain ⟨⟨⟩, -, rfl⟩ := Except.map_eq_ok_iff.1 (Prod.mk.inj opens).2
    obtain ⟨knows, same⟩ := c₀.visit_eq
    refine ⟨location, ?_⟩
    rw [Attached.database?, Attached.save_store, Attached.save_file]
    simp [Attached.reading, same, c₀.settle_keeps.1, mode]

namespace Session

variable {s : Session} {key : StoreKey} {o : Opening} {a : Attached}

/-- A session that has opened a directory to read has a store that reads. -/
theorem openAt_reads (reads : o.mode = .readOnly) (opens : (s.openAt fs key o).answer = .ok a) :
    (s.openAt fs key o).session.mode = some .readOnly ∧
      ∃ location, a.database? = some (location, .readOnly) := by
  obtain ⟨closed, -⟩ := openAt_eq_ok opens
  rw [openAt_of_closed closed, reads, if_pos (c := AccessMode.readOnly.isReadOnly = true) rfl]
    at opens ⊢
  unfold openReading Opening.openBacking at opens ⊢
  rw [reads] at opens ⊢
  cases found : s.findBacking fs o.uri with
  | error e =>
    rw [found] at opens
    cases opens
  | ok at' =>
    obtain ⟨backing, files⟩ := at'
    rw [found] at opens
    dsimp only at opens ⊢
    rcases opened : fs.openStore backing .readOnly with ⟨fs', e | a'⟩ <;> rw [opened] at opens
    · cases opens
    · dsimp only at opens ⊢
      cases refusal : o.refusal with
      | some e =>
        rw [refusal] at opens
        cases opens
      | none =>
        rw [refusal] at opens
        cases opens
        obtain ⟨location, database⟩ := database?_of_openStore opened
        exact ⟨rfl, location, database⟩

theorem opened_of_setting {s' : Session} (same : s'.setting = s.setting)
    (closed : s.opened = none) : s'.opened = none := by
  unfold setting at same
  rw [closed] at same
  exact Option.map_eq_none_iff.1 same

end Session

namespace Seat

/-- A closed session follows no streams and has no file open. -/
theorem Sits.fresh (sits : Sits H fs made i s) (closed : s.session.opened = none) :
    s.session.registry.streams = [] ∧ s.attached.file = none := by
  cases sits with
  | closed _ fresh none => exact ⟨fresh, none⟩
  | reads mode _ _ | writes mode _ _ _ _ _ =>
    rw [Session.mode, closed] at mode
    cases mode

/-- Nothing becomes of any tree when a session's store is closed. -/
theorem Sits.close (sits : Sits H fs made i s) (fs' : FileSystem) (isShared : Bool) :
    s.attached.close fs' isShared = fs' := by
  cases sits with
  | closed _ _ none =>
    unfold Attached.close
    rw [none]
    cases s.attached.store.engine <;> rfl
  | reads _ _ reads => exact Attached.close_of_reading fs' reads isShared
  | writes _ _ _ _ serves _ => exact Desk.close_of_sees serves.sees fs' isShared

end Seat

namespace Office

/-- What becomes of a session alone leaves the tree. -/
theorem Effect.of_seat {seat : Option Seat} (inOrder : f.InOrder H made)
    (sits : ∀ s, seat = some s →
      IsHarmless s.session.config.manifestName ∧ s.Sits H f.files made i) :
    f.Effect H made i [] (f.put i f.files seat) :=
  .of_none_made inOrder inOrder.sound (.refl f.files none) sits

variable {key : StoreKey} {o : Opening} {a : Attached}

/-- A session that opens a directory for writing makes a backing file where none was. -/
theorem effect_of_found (inOrder : f.InOrder H made) (there : f.seats i = some s)
    (writes : o.mode = .readWrite) (fits : o.Fits)
    (opens : (s.session.openAt f.files key o).answer = .ok a) {name : String}
    (backing : o.backingName? = some name) {location : Location} {id : FileId}
    (file : a.file = some (location, id)) :
    f.Effect H made i [⟨i, o.uri.join name, location, id⟩]
      (f.put i (s.session.openAt f.files key o).files
        (some ⟨(s.session.openAt f.files key o).session, a⟩)) := by
  have harmless := inOrder.harmless i s there
  obtain ⟨closed, -⟩ := Session.openAt_eq_ok opens
  obtain ⟨fresh, -⟩ := (inOrder.sits i s there).fresh closed
  have same := Session.openAt_of_readWrite writes opens
  rw [same] at opens ⊢
  have respects := s.session.openWriting_respects inOrder.sound key writes harmless fits
  obtain ⟨-, _, failed⟩ | ⟨fs₁, l, name', backing', first, plot, second, founds⟩ :=
    s.session.openWriting_cases inOrder.sound key writes harmless fits
  · rw [opens] at failed
    cases failed
  obtain rfl : name' = name := Option.some.inj (backing'.symm.trans backing)
  obtain ⟨serves, empty⟩ := founds a opens (s.session.openWriting f.files key o).session
  obtain ⟨rfl, rfl⟩ := Prod.mk.inj (Option.some.inj (file.symm.trans serves.sees.file))
  obtain ⟨_, _, _, _, -, -, -, -, -, -, session⟩ := Session.openWriting_eq_ok opens
  have keeps := Session.Keeps.of_empty (H := H)
    (s := (s.session.openWriting f.files key o).session) (by rw [session]; exact fresh) empty
  have kept : Kept H (s.session.openWriting f.files key o).files
      ⟨i, o.uri.join name', l ++ [name'], fs₁.contents.length⟩ :=
    .of_serves serves rfl keeps fun fs' stay => plot.resolves fs' fun l reaches =>
      stay l (second.directories l reaches)
  apply Effect.of_respects inOrder serves.sound respects
  · intro m mem
    rw [List.mem_singleton.1 mem]
    refine ⟨kept, fun id there => ?_⟩
    have still := (first.files (l ++ [name']) id (fun never => never)).2 there
    rw [plot.vacant] at still
    cases still
  · exact List.nodup_singleton _
  · have mode : (s.session.openWriting f.files key o).session.mode = some .readWrite := by
      rw [session]
      exact congrArg some writes
    apply Seat.Sits.only (.writes mode (List.mem_append_right _ (List.mem_singleton_self _)) rfl
      rfl serves keeps)
    rw [session]
    exact harmless

/-- A session that opens a directory to read disturbs no backing file. -/
theorem effect_of_look (inOrder : f.InOrder H made) (there : f.seats i = some s)
    (reads : o.mode = .readOnly) (opens : (s.session.openAt f.files key o).answer = .ok a) :
    f.Effect H made i [] (f.put i (s.session.openAt f.files key o).files
      (some ⟨(s.session.openAt f.files key o).session, a⟩)) := by
  obtain ⟨sound, inOrder'⟩ := s.session.openAt_inOrder inOrder.sound key o
  obtain ⟨mode, location, database⟩ := Session.openAt_reads reads opens
  have respects := (s.session.openAt_reading inOrder.sound key reads).respects inOrder.sound
  apply Effect.of_none_made inOrder sound respects
  apply Seat.Sits.only (.reads mode (inOrder' a opens) database)
  obtain ⟨-, _, -, session⟩ := Session.openAt_eq_ok opens
  rw [session]
  exact inOrder.harmless i s there

/-- A session that could not open a directory disturbs no backing file. -/
theorem effect_of_refused (inOrder : f.InOrder H made) (there : f.seats i = some s)
    (fits : o.mode = .readWrite → o.Fits) {e : SessionError}
    (refused : (s.session.openAt f.files key o).answer = .error e) :
    f.Effect H made i [] (f.put i (s.session.openAt f.files key o).files
      (some ⟨(s.session.openAt f.files key o).session, s.attached⟩)) := by
  have harmless := inOrder.harmless i s there
  have sits := inOrder.sits i s there
  rw [Session.openAt_eq_error refused]
  cases opened : s.session.opened with
  | some o' =>
    rw [Session.openAt_of_isOpen (by rw [Session.isOpen, opened]; rfl)]
    exact Effect.of_seat inOrder (sits.only harmless)
  | none =>
    obtain ⟨fresh, none⟩ := sits.fresh opened
    obtain ⟨sound, -⟩ := s.session.openAt_inOrder inOrder.sound key o
    have respects : f.files.Respects Option.none (s.session.openAt f.files key o).files := by
      cases mode : o.mode with
      | readOnly => exact (s.session.openAt_reading inOrder.sound key mode).respects inOrder.sound
      | readWrite =>
        rw [Session.openAt_of_closed opened, mode,
          if_neg (c := AccessMode.readWrite.isReadOnly = true) (by decide)]
        exact s.session.openWriting_respects inOrder.sound key mode harmless (fits mode)
    exact Effect.of_none_made inOrder sound respects
      (Seat.Sits.only (.closed opened fresh none) harmless)

/-- A session that writes disturbs no other file, and keeps its own, to which it adds rows at
most. -/
theorem Effect.of_serves {l : Location} {name : String} {d : Desk} {session : Session}
    {root : Nonce} {rows : Rows} {seat : Option Seat} (inOrder : f.InOrder H made)
    (there : f.seats i = some s) (mem : m ∈ made) (at' : m.location = l ++ [name])
    (serves : Desk.Serves ⟨s.session, f.files, s.attached⟩ l name m.id)
    (within : f.files.Within (Location.Owns (l ++ [name])) d.files) (serves' : d.Serves l name m.id)
    (grows : (f.desk s).store.tables.Extends d.store.tables)
    (keeps : session.Keeps H root d.store rows)
    (sits : ∀ s, seat = some s →
      IsHarmless s.session.config.manifestName ∧ s.Sits H d.files made i) :
    f.Effect H made i [] (f.put i d.files seat) := by
  have writes : f.writes? i = some (l ++ [name]) := by
    rw [writes?, there]
    exact Seat.writes?_of_serves serves
  have respects := within.respects serves.backing.named
  refine ⟨serves'.sound, ?_, fun b id isBacking file => ?_,
    fun j ne => Function.update_of_ne ne _ _, fun m' mem' own => ?_, fun m mem => (nomatch mem),
    List.nodup_nil, fun s' same => ?_⟩
  · rw [writes]
    exact respects
  · by_cases own : b = l ++ [name]
    · subst own
      obtain rfl : m.id = id :=
        Node.file.inj (Option.some.inj (serves.backing.file.symm.trans file))
      refine ⟨serves'.backing.file, ?_⟩
      rw [← serves.tables, show (f.put i d.files seat).files = d.files from rfl, ← serves'.tables]
      exact grows
    · have leaves := respects.backing b id isBacking file fun same =>
        own (Option.some.inj same).symm
      refine ⟨leaves.file, ?_⟩
      rw [show (f.put i d.files seat).files = d.files from rfl, leaves.content]
      exact .refl _
  · have same : m' = m := by
      apply inOrder.eq_of_location mem' mem
      rw [at']
      exact Option.some.inj (own.symm.trans writes)
    subst same
    exact .of_serves serves' at' keeps fun fs' stay =>
      (inOrder.kept m' mem).resolves fs' fun l reaches => stay l (within.directories l reaches)
  · have new : Function.update f.seats i seat i = seat := Function.update_self ..
    rw [List.append_nil]
    exact sits s' (new.symm.trans same)

/-- **A call disturbs no backing file but the one that the session writes**, and keeps that one. -/
theorem effect_of_call (inOrder : f.InOrder H made) (there : f.seats i = some s) (c : SessionCall) :
    f.Effect H made i [] (f.put i ((f.desk s).call H c).files
      (some ⟨((f.desk s).call H c).session, ((f.desk s).call H c).attached⟩)) := by
  have lasts := Session.call_lasts (H := H) (s := s.session)
    (Store.joins_lasting (f.desk s).store) c (.refl _)
  have harmless : IsHarmless ((f.desk s).call H c).session.config.manifestName := by
    rw [show ((f.desk s).call H c).session.config = s.session.config from lasts.config]
    exact inOrder.harmless i s there
  have mode : ((f.desk s).call H c).session.mode = s.session.mode := by
    rw [Session.mode_eq_setting, Session.mode_eq_setting]
    exact congrArg _ lasts.setting
  cases inOrder.sits i s there with
  | closed closed fresh none =>
    have still := Session.still_of_closed (H := H) closed (f.desk s).store c
    have kept : ((f.desk s).call H c).files = f.files :=
      congrArg Prod.snd (Attached.save_of_no_file none f.files _)
    have fresh' : ((f.desk s).call H c).session.registry.streams = [] :=
      (congrArg StreamRegistry.streams still.registry).trans fresh
    have none' : ((f.desk s).call H c).attached.file = Option.none :=
      (Attached.save_file ..).trans none
    rw [kept]
    exact Effect.of_seat inOrder (Seat.Sits.only
      (.closed (Session.opened_of_setting lasts.setting closed) fresh' none') harmless)
  | reads reads attached database =>
    have before : (f.desk s).InOrder := ⟨inOrder.sound, attached⟩
    have after := before.step (.call (H := H) c)
    have looks := (Session.call_of_reading (H := H) reads (Store.Looks.viewed (f.desk s).store) c
      (.refl _)).store
    have undisturbed := Attached.undisturbed_of_looks attached inOrder.sound looks
    rw [database] at undisturbed
    have respects := Undisturbed.respects undisturbed inOrder.sound
    have database' : ((f.desk s).call H c).attached.database? = _ :=
      (Attached.database?_of_looks looks).trans database
    exact Effect.of_none_made inOrder after.files respects
      (Seat.Sits.only (.reads (mode.trans reads) after.attached database') harmless)
  | writes writes mem founder at' serves keeps =>
    obtain ⟨serves', within, tables⟩ := serves.put
      (s.session.call H (f.desk s).store c).session (Session.call_comesTo H s.session _ c)
    obtain ⟨rows', -, keeps'⟩ := keeps.call c
    have keeps'' := keeps'.disturb tables
    have grows : (f.desk s).store.tables.Extends ((f.desk s).call H c).store.tables := by
      rw [show ((f.desk s).call H c).store.tables = _ from tables]
      exact (Session.call_effect H s.session _ c).extends
    exact Effect.of_serves inOrder there mem at' serves within serves' grows keeps''
      (Seat.Sits.only (.writes (mode.trans writes) mem founder at' serves' keeps'') harmless)

theorem effect_of_fail (inOrder : f.InOrder H made) (there : f.seats i = some s)
    (faults : FaultPlan) : f.Effect H made i []
      (f.put i f.files (some ⟨s.session, ((f.desk s).failing faults).attached⟩)) := by
  have sits : Seat.Sits H f.files made i ⟨s.session, ((f.desk s).failing faults).attached⟩ := by
    cases inOrder.sits i s there with
    | closed closed fresh none => exact .closed closed fresh none
    | reads reads attached database => exact .reads reads (attached.failing faults) database
    | writes writes mem founder at' serves keeps =>
      have serves' := serves.failing faults
      exact .writes writes mem founder at' serves'
        (keeps.disturb (serves'.tables.trans serves.tables.symm))
  exact Effect.of_seat inOrder (sits.only (inOrder.harmless i s there))

/-- A session that writes still serves its file when it is closed. -/
theorem close_of_serves {l : Location} {name : String} {id : FileId}
    (serves : Desk.Serves ⟨s.session, f.files, s.attached⟩ l name id)
    (writes : s.session.mode = some .readWrite)
    (harmless : IsHarmless s.session.config.manifestName) :
    ∃ attached files answer, (f.desk s).close = ⟨s.session.release, files, attached, answer⟩ ∧
      Desk.Serves ⟨s.session, files, attached⟩ l name id ∧
      f.files.Within (Location.Owns (l ++ [name])) files ∧
      (⟨s.session, files, attached⟩ : Desk).store.tables = (f.desk s).store.tables := by
  obtain ⟨o, opened, -⟩ := Option.map_eq_some_iff.1 writes
  have refresh := serves.refresh harmless o s.session
  rcases refreshed : s.session.refreshManifest f.files o s.attached with ⟨attached, files, answer⟩
  dsimp only at refresh
  rw [refreshed] at refresh
  refine ⟨attached, files, answer, ?_, refresh⟩
  rw [Desk.close, desk, Session.close_of_opened opened, refreshed]

theorem close_of_closed (closed : s.session.opened = none) :
    (f.desk s).close = ⟨s.session, f.files, s.attached, .ok ()⟩ := by
  unfold Desk.close Session.close desk
  rw [closed]

/-- Nothing becomes of any tree when the store of a session that was closed is closed. -/
theorem InOrder.close (inOrder : f.InOrder H made) (there : f.seats i = some s) (fs' : FileSystem)
    (isShared : Bool) : (f.desk s).close.attached.close fs' isShared = fs' := by
  have sits := inOrder.sits i s there
  cases inOrder.sits i s there with
  | closed closed _ _ =>
    rw [close_of_closed closed]
    exact sits.close fs' isShared
  | reads reads _ _ =>
    rw [show (f.desk s).close = _ from Session.close_of_reading reads]
    exact sits.close fs' isShared
  | writes writes _ _ _ serves _ =>
    obtain ⟨_, _, _, same, serves', -⟩ :=
      close_of_serves serves writes (inOrder.harmless i s there)
    rw [same]
    exact Desk.close_of_sees serves'.sees fs' isShared

/-- A session that is closed disturbs no backing file, also when it keeps its manifest. -/
theorem effect_of_close (inOrder : f.InOrder H made) (there : f.seats i = some s)
    (isShared : Bool) : f.Effect H made i []
      (f.put i ((f.desk s).close.attached.close (f.desk s).close.files isShared)
        (some ⟨(f.desk s).close.session, default⟩)) := by
  have harmless := inOrder.harmless i s there
  rw [inOrder.close there]
  -- whatever happens to the tree, the session ends up closed
  have sits {fs : FileSystem} : Seat.Sits H fs made i ⟨s.session.release, default⟩ :=
    .closed rfl rfl rfl
  cases inOrder.sits i s there with
  | closed closed fresh none =>
    rw [close_of_closed closed]
    exact Effect.of_seat inOrder (Seat.Sits.only (.closed closed fresh rfl) harmless)
  | reads reads attached database =>
    rw [show (f.desk s).close = _ from Session.close_of_reading reads]
    exact Effect.of_seat inOrder (sits.only harmless)
  | writes writes mem founder at' serves keeps =>
    obtain ⟨attached, files, _, same, serves', within, tables⟩ :=
      close_of_serves serves writes harmless
    rw [same]
    have grows : (f.desk s).store.tables.Extends
        (⟨s.session, files, attached⟩ : Desk).store.tables := by
      rw [tables]
      exact .refl _
    exact Effect.of_serves inOrder there mem at' serves within serves' grows (keeps.disturb tables)
      (sits.only harmless)

/-- Every opening is a step, whatever comes of it. -/
theorem exists_does_openAt (inOrder : f.InOrder H made) (there : f.seats i = some s)
    (key : StoreKey) (fits : o.mode = .readWrite → o.Fits) :
    ∃ more, f.Does H i more (f.put i (s.session.openAt f.files key o).files
      (some ⟨(s.session.openAt f.files key o).session,
        match (s.session.openAt f.files key o).answer with
        | .error _ => s.attached
        | .ok a => a⟩)) := by
  cases answer : (s.session.openAt f.files key o).answer with
  | error e => exact ⟨[], .refused there key fits answer⟩
  | ok a =>
    cases mode : o.mode with
    | readOnly => exact ⟨[], .look there key mode answer⟩
    | readWrite =>
      have opens := answer
      rw [Session.openAt_of_readWrite mode answer] at opens
      obtain ⟨-, _, failed⟩ | ⟨_, _, _, backing, -, -, -, founds⟩ :=
        s.session.openWriting_cases inOrder.sound key mode (inOrder.harmless i s there) (fits mode)
      · rw [opens] at failed
        cases failed
      · obtain ⟨serves, -⟩ := founds a opens s.session
        exact ⟨_, .found there key mode (fits mode) answer backing serves.sees.file⟩

/-- **What each step comes to.** -/
theorem Does.effect (does : f.Does H i more f') (inOrder : f.InOrder H made) :
    f.Effect H made i more f' := by
  cases does with
  | enter free closed fresh harmless =>
    exact Effect.of_seat inOrder (Seat.Sits.only (.closed closed fresh rfl) harmless)
  | found there key writes fits opens backing file =>
    exact effect_of_found inOrder there writes fits opens backing file
  | look there key reads opens => exact effect_of_look inOrder there reads opens
  | refused there key fits refused => exact effect_of_refused inOrder there fits refused
  | call there c => exact effect_of_call inOrder there c
  | fail there faults => exact effect_of_fail inOrder there faults
  | close there isShared => exact effect_of_close inOrder there isShared
  | drop there isShared =>
    rw [(inOrder.sits i _ there).close]
    exact Effect.of_seat inOrder fun s' same => nomatch same

/-- **The invariant holds along every run**, and no backing file loses a row. -/
theorem Run.continues (run : f.Run H more f') (inOrder : f.InOrder H made) :
    f'.InOrder H (made ++ more) ∧ f.files.Extends f'.files := by
  induction run with
  | start => exact ⟨(List.append_nil made).symm ▸ inOrder, .refl _⟩
  | step _ does ih =>
    obtain ⟨inOrder', grows⟩ := ih
    have effect := does.effect inOrder'
    rw [← List.append_assoc]
    exact ⟨inOrder'.step effect, grows.trans effect.grows⟩

/-- Nobody has come yet. -/
theorem InOrder.of_empty (sound : f.files.Sound) (empty : ∀ i, f.seats i = none) :
    f.InOrder H [] := by
  refine ⟨sound, fun m mem => (nomatch mem), List.nodup_nil, fun i s there => ?_,
    fun i s there => ?_⟩
  · rw [empty] at there
    cases there
  · rw [empty] at there
    cases there

end Office

end SealedLog

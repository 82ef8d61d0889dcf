import Mathlib.Data.List.Perm.Basic
import SealedLog.Workspace

/-!
# The order of sessions in workspaces

A workspace keeps its sessions under names, each of which stands for one session. In which order
they are kept makes no difference to any command.

* `Named.lookup_put`, `Named.lookup_erase_of_ne`: names that are given and given up;
* `Named.Distinct`, `Named.lookup_perm`: things under distinct names;
* `Named.Change`: what a command does to the sessions that are kept;
* `Workspace.sessionStep_withSessions`: commands look sessions up, and do nothing else with them;
* `Workspace.Reordered`: the workspaces are the same but for the order of their sessions;
* `Reordered.step`, `Reordered.run`: commands are answered alike, and the order is all that differs.
-/

namespace SealedLog

namespace Named

variable {α : Type} {things things' : Named α} {name other : String} {thing : α}

theorem lookup_erase (things : Named α) (name : String) :
    (things.erase name).lookup name = none := by
  rw [List.lookup_eq_none_iff]
  rintro ⟨other, thing⟩ mem
  exact bne_iff_ne.2 (bne_iff_ne.1 (List.mem_filter.1 mem).2).symm

theorem lookup_erase_of_ne (ne : other ≠ name) :
    (things.erase name).lookup other = things.lookup other := by
  induction things with
  | nil => rfl
  | cons first rest ih =>
    obtain ⟨name', thing'⟩ := first
    rw [erase, List.filter_cons, List.lookup_cons]
    by_cases same : name' = name
    · subst same
      rw [if_neg (by simp), show (other == name') = false by simpa using ne]
      exact ih
    · rw [if_pos (by simpa using same), List.lookup_cons]
      exact congrArg (fun left => bif other == name' then some thing' else left) ih

theorem lookup_put (things : Named α) (name : String) (thing : α) :
    (things.put name thing).lookup name = some thing := by
  rw [put, List.lookup_append, lookup_erase, List.lookup_cons, beq_self_eq_true]
  rfl

theorem lookup_put_of_ne (ne : other ≠ name) :
    (things.put name thing).lookup other = things.lookup other := by
  rw [put, List.lookup_append, lookup_erase_of_ne ne, List.lookup_cons,
    show (other == name) = false by simpa using ne]
  exact Option.or_none

/-- No name stands for two things. -/
def Distinct (things : Named α) : Prop := (things.map Prod.fst).Nodup

theorem lookup_eq_some_iff (distinct : things.Distinct) :
    things.lookup name = some thing ↔ (name, thing) ∈ things := by
  induction things with
  | nil => simp
  | cons first rest ih =>
    obtain ⟨fresh, distinct⟩ := List.nodup_cons.1 distinct
    rw [List.lookup_cons, List.mem_cons]
    by_cases same : name = first.1
    · subst same
      have absent : (first.1, thing) ∉ rest := fun h => fresh (List.mem_map.2 ⟨_, h, rfl⟩)
      simp [Prod.ext_iff, absent, eq_comm]
    · have other : (name == first.1) = false := by simpa using same
      rw [other]
      simp [ih distinct, Prod.ext_iff, same]

theorem lookup_perm (distinct : things.Distinct) (perm : things.Perm things') (name : String) :
    things.lookup name = things'.lookup name := by
  have distinct' : things'.Distinct := (perm.map Prod.fst).nodup_iff.1 distinct
  refine Option.ext fun thing => ?_
  rw [lookup_eq_some_iff distinct, lookup_eq_some_iff distinct', perm.mem_iff]

theorem mem_of_lookup (found : things.lookup name = some thing) : (name, thing) ∈ things := by
  obtain ⟨before, after, rfl, -⟩ := List.lookup_eq_some_iff.1 found
  exact List.mem_append_right _ List.mem_cons_self

/-- To give a name once more to what has it moves that to the end. -/
theorem perm_put (distinct : things.Distinct) (found : things.lookup name = some thing) :
    things.Perm (things.put name thing) := by
  obtain ⟨before, after, rfl, -⟩ := List.lookup_eq_some_iff.1 found
  have perm : (before ++ (name, thing) :: after).Perm ((name, thing) :: (before ++ after)) :=
    List.perm_middle
  -- nothing else has the name
  have fresh : name ∉ (before ++ after).map Prod.fst :=
    (List.nodup_cons.1 ((perm.map Prod.fst).nodup_iff.1 distinct)).1
  have kept : Named.erase (before ++ after) name = before ++ after :=
    List.filter_eq_self.2 fun other mem => bne_iff_ne.2 fun same =>
      fresh (List.mem_map.2 ⟨other, mem, same⟩)
  have erased : Named.erase (before ++ (name, thing) :: after) name = before ++ after := by
    rw [← kept]
    unfold Named.erase
    simp
  rw [put, erased]
  exact perm.trans (List.perm_append_singleton _ _).symm

/-- What a command does to the things that are kept: it gives one name or gives it up, at most. -/
inductive Change (name : String) : (Named α → Named α) → Prop
  | keep : Change name id
  | put (thing : α) : Change name (put · name thing)
  | erase : Change name (erase · name)

theorem Change.lookup_of_ne {change : Named α → Named α} (h : Change name change)
    (ne : other ≠ name) : (change things).lookup other = things.lookup other := by
  cases h with
  | keep => rfl
  | put thing => exact lookup_put_of_ne ne
  | erase => exact lookup_erase_of_ne ne

theorem Distinct.erase (distinct : things.Distinct) (name : String) :
    (things.erase name).Distinct :=
  List.Nodup.sublist (List.filter_sublist.map Prod.fst) distinct

theorem Distinct.put (distinct : things.Distinct) (name : String) (thing : α) :
    (things.put name thing).Distinct := by
  unfold Distinct Named.put
  rw [List.map_append, List.nodup_append]
  refine ⟨distinct.erase name, by simp, ?_⟩
  intro other mem other' mem'
  obtain ⟨kept, hk, rfl⟩ := List.mem_map.1 mem
  obtain rfl : other' = name := List.mem_singleton.1 mem'
  exact bne_iff_ne.1 (List.mem_filter.1 hk).2

theorem Change.perm {change : Named α → Named α} (h : Change name change)
    (perm : things.Perm things') : (change things).Perm (change things') := by
  cases h with
  | keep => exact perm
  | put thing => exact (perm.filter _).append_right _
  | erase => exact perm.filter _

theorem Change.distinct {change : Named α → Named α} (h : Change name change)
    (distinct : things.Distinct) : (change things).Distinct := by
  cases h with
  | keep => exact distinct
  | put thing => exact distinct.put name thing
  | erase => exact distinct.erase name

end Named

namespace Workspace

variable {H : HashFunction} {w w' : Workspace} {name : String}

/-- The workspace with these sessions. -/
def withSessions (w : Workspace) (sessions : Named Member) : Workspace :=
  { w with sessions := sessions }

/-- What a command does to a workspace with these sessions: what it does to the workspace, and a
change of the sessions. -/
def seated (done : Workspace × Answer) (sessions : Named Member) : Workspace × Answer :=
  (done.1.withSessions sessions, done.2)

section

variable (w) (sessions : Named Member)

theorem changeFiles_withSessions (result : Except FileError FileSystem) :
    (w.withSessions sessions).changeFiles result = seated (w.changeFiles result) sessions := by
  cases result <;> rfl

theorem fileStep_withSessions (path : String) (c : FileCommand) :
    (w.withSessions sessions).fileStep path c = seated (w.fileStep path c) sessions := by
  cases c with
  | makeDirectory => rfl
  | put octets => exact w.changeFiles_withSessions sessions (w.files.write (w.locate path) octets)
  | get =>
    unfold fileStep
    dsimp only [withSessions, locate]
    cases w.files.read ⟨w.base.text ++ "/" ++ path⟩ <;> rfl
  | remove => exact w.changeFiles_withSessions sessions (w.files.removeTree (w.locate path))
  | status => rfl
  | list => rfl

theorem editStep_withSessions (path : String) (edit : Database.Edit) :
    (w.withSessions sessions).editStep path edit = seated (w.editStep path edit) sessions := by
  unfold editStep
  dsimp only [withSessions, locate]
  rcases w.files.openStore ⟨w.base.text ++ "/" ++ path⟩ .readWrite with ⟨files, e | attached⟩ <;>
    rfl

theorem storeStep_withSessions (name : String) (c : StoreCommand) :
    (w.withSessions sessions).storeStep H name c = seated (w.storeStep H name c) sessions := by
  cases c with
  | make kind =>
    cases kind with
    | memory => rfl
    | database => rfl
    | file path mode =>
      unfold storeStep makeStore
      dsimp only [withSessions, locate]
      rcases w.files.openStore ⟨w.base.text ++ "/" ++ path⟩ mode with ⟨files, e | attached⟩ <;> rfl
  | drop => rfl
  | _ =>
    unfold storeStep
    dsimp only [withSessions]
    cases w.storeNames.lookup name <;> rfl

theorem registryStep_withSessions (name : String) (c : RegistryCommand) :
    (w.withSessions sessions).registryStep H name c =
      seated (w.registryStep H name c) sessions := by
  cases c with
  | make nonce policy => rfl
  | create store descriptor =>
    unfold registryStep registryCall
    dsimp only [withSessions]
    cases w.registries.lookup name with
    | none => rfl
    | some r =>
      dsimp only
      cases w.storeNames.lookup store <;> rfl
  | _ =>
    unfold registryStep
    dsimp only [withSessions]
    cases w.registries.lookup name <;> rfl

end

/-- Publishers go by whether any session is told to offer them events. -/
theorem publisherCall_withSessions {sessions : Named Member}
    (held : (w.withSessions sessions).isHeld = w.isHeld) (name : String) (handle : PublisherHandle)
    (p : Publisher) (c : PublisherCommand) :
    (w.withSessions sessions).publisherCall name handle p c =
      seated (w.publisherCall name handle p c) sessions := by
  have run : ∀ key change, (w.withSessions sessions).runPublishers key change =
      ((w.runPublishers key change).1.withSessions sessions, (w.runPublishers key change).2) := by
    intro key change
    unfold runPublishers
    rw [held]
    rfl
  unfold publisherCall
  cases c with
  | offer event =>
    dsimp only
    split_ifs <;> rfl
  | submit event =>
    dsimp only
    cases p.sink.submit event <;> rfl
  | clone =>
    dsimp only
    split_ifs <;> rfl
  | drain =>
    dsimp only
    rw [run]
    rfl
  | join =>
    dsimp only
    rw [run, held]
    rfl
  | abort =>
    dsimp only
    rw [run]
    rfl
  | _ => rfl

theorem publisherStep_withSessions {sessions : Named Member}
    (held : (w.withSessions sessions).isHeld = w.isHeld) (name : String) (c : PublisherCommand) :
    (w.withSessions sessions).publisherStep name c =
      seated (w.publisherStep name c) sessions := by
  cases c with
  | make config =>
    unfold publisherStep
    dsimp only
    cases Publisher.start true config <;> rfl
  | _ =>
    unfold publisherStep
    rw [show (w.withSessions sessions).publisherNames = w.publisherNames from rfl]
    cases w.publisherNames.lookup name with
    | none => rfl
    | some handle => exact publisherCall_withSessions held ..

/-! ### Commands on sessions -/

theorem openMember_withSessions (w : Workspace) (sessions : Named Member) (name : String)
    (m : Member) (o : Opening) :
    (w.withSessions sessions).openMember name m o = seated (w.openMember name m o)
      (sessions.put name
        { m with session := (m.session.openAt w.files w.stores.length o).session }) := by
  unfold openMember
  dsimp only [withSessions]
  cases (m.session.openAt w.files w.stores.length o).answer <;> rfl

theorem callMember_withSessions (w : Workspace) (sessions : Named Member) (name : String)
    (m : Member) (c : SessionCall) :
    (w.withSessions sessions).callMember H name m c = seated (w.callMember H name m c)
      (sessions.put name
        { m with session := (m.session.call H (w.sessionStore m.session) c).session }) := by
  have put : ∀ store, (w.withSessions sessions).putSessionStore m.session store =
      (w.putSessionStore m.session store).withSessions sessions := by
    intro store
    unfold putSessionStore
    cases m.session.opened <;> rfl
  have same : (w.withSessions sessions).sessionStore m.session = w.sessionStore m.session := rfl
  unfold callMember
  dsimp only
  rw [same, put]
  cases m.audience <;> rfl

/-- A command on a session that is there changes that session or drops it. -/
theorem memberStep_withSessions (w : Workspace) (name : String) (m : Member)
    (c : SessionCommand) : ∃ change, Named.Change name change ∧ ∀ sessions,
      (w.withSessions sessions).memberStep H name m c =
        seated (w.memberStep H name m c) (change sessions) := by
  cases c with
  | make nonce policy config audience => exact ⟨id, .keep, fun _ => rfl⟩
  | attach store mode =>
    unfold memberStep
    dsimp only [withSessions]
    cases w.storeNames.lookup store with
    | none => exact ⟨id, .keep, fun _ => rfl⟩
    | some key =>
      exact ⟨_, .put { m with session := (m.session.attach (w.storeAt key) key mode).session },
        fun _ => rfl⟩
  | openAt uri mode faults refusal =>
    let o : Opening := { uri := w.locate uri, mode := mode, faults := faults, refusal := refusal }
    refine ⟨_, .put
      { m with session := (m.session.openAt w.files w.stores.length o).session },
      fun sessions => ?_⟩
    exact w.openMember_withSessions sessions name m o
  | call c =>
    refine ⟨_, .put
      { m with session := (m.session.call H (w.sessionStore m.session) c).session },
      fun sessions => ?_⟩
    exact w.callMember_withSessions sessions name m c
  | close =>
    unfold memberStep closeMember
    cases m.session.opened with
    | none => exact ⟨id, .keep, fun _ => rfl⟩
    | some o =>
      exact ⟨_, .put
        { m with session := (m.session.close w.files (w.attachedAt o.store)).session },
        fun _ => rfl⟩
  | drop => exact ⟨_, .erase, fun _ => rfl⟩
  | info => exact ⟨id, .keep, fun _ => rfl⟩
  | lookup stream => exact ⟨id, .keep, fun _ => rfl⟩

theorem sessionStep_withSessions (w : Workspace) (name : String) (c : SessionCommand) :
    ∃ change, Named.Change name change ∧ ∀ sessions, sessions.lookup name = w.sessions.lookup name →
      (w.withSessions sessions).sessionStep H name c =
        seated (w.sessionStep H name c) (change sessions) := by
  cases c with
  | make nonce policy config audience =>
    unfold sessionStep
    dsimp only
    have same (sessions) :
        (w.withSessions sessions).audience? audience = w.audience? audience := by
      cases audience <;> rfl
    cases found : w.audience? audience with
    | none =>
      refine ⟨id, .keep, fun sessions _ => ?_⟩
      rw [same, found]
      rfl
    | some audience' =>
      refine ⟨_, .put
        { session := { registry := { nonce := nonce, policy := policy }, config := config }
          audience := audience' }, fun sessions _ => ?_⟩
      rw [same, found]
      rfl
  | _ =>
    unfold sessionStep
    cases w.sessions.lookup name with
    | none =>
      refine ⟨id, .keep, fun sessions same => ?_⟩
      rw [show (w.withSessions sessions).sessions.lookup name = none from same]
      rfl
    | some m =>
      obtain ⟨change, isChange, done⟩ := w.memberStep_withSessions (H := H) name m _
      refine ⟨change, isChange, fun sessions same => ?_⟩
      rw [show (w.withSessions sessions).sessions.lookup name = some m from same]
      exact done sessions

theorem backendStep_withSessions (w : Workspace) (c : BackendCommand) :
    ∃ name change, Named.Change name change ∧ ∀ sessions,
      (w.withSessions sessions).backendStep H c = seated (w.backendStep H c) (change sessions) := by
  cases c with
  | create identifier name config =>
    unfold backendStep
    dsimp only [withSessions]
    cases w.backends.find identifier with
    | error e => exact ⟨name, id, .keep, fun _ => rfl⟩
    | ok source =>
      let member : Member :=
        { session := .ofNonce (w.firstNonce H source).2 config, audience := .workspace
          source := some source }
      refine ⟨name, _, .put member, fun _ => ?_⟩
      cases source <;> rfl
  | _ => exact ⟨"", id, .keep, fun _ => rfl⟩

/-! ### Runs -/

/-- The workspaces are the same but for the order of their sessions. -/
structure Reordered (w w' : Workspace) : Prop where
  perm : w.sessions.Perm w'.sessions
  distinct : w.sessions.Distinct
  same : w' = w.withSessions w'.sessions

namespace Reordered

theorem refl (distinct : w.sessions.Distinct) : Reordered w w := ⟨.refl _, distinct, rfl⟩

theorem isHeld (h : Reordered w w') : (w.withSessions w'.sessions).isHeld = w.isHeld := by
  funext key
  unfold Workspace.isHeld
  dsimp only [withSessions]
  rw [h.perm.any_eq]

/-- A command changes the sessions alike, and the rest as if they stood in one order. -/
theorem perform (h : Reordered w w') (c : Command) :
    Reordered (w.perform H c).1 (w'.perform H c).1 ∧
      (w'.perform H c).2 = (w.perform H c).2 := by
  obtain ⟨_, change, isChange, done⟩ : ∃ name change, Named.Change name change ∧
      ∀ sessions : Named Member, (∀ name, sessions.lookup name = w.sessions.lookup name) →
      (w.withSessions sessions).isHeld = w.isHeld →
      (w.withSessions sessions).perform H c = seated (w.perform H c) (change sessions) := by
    cases c with
    | file path command =>
      exact ⟨"", id, .keep, fun _ _ _ => w.fileStep_withSessions _ path command⟩
    | editDatabase path edit =>
      exact ⟨"", id, .keep, fun _ _ _ => w.editStep_withSessions _ path edit⟩
    | store name command =>
      exact ⟨"", id, .keep, fun _ _ _ => w.storeStep_withSessions _ name command⟩
    | registry name command =>
      exact ⟨"", id, .keep, fun _ _ _ => w.registryStep_withSessions _ name command⟩
    | session name command =>
      obtain ⟨change, isChange, done⟩ := w.sessionStep_withSessions (H := H) name command
      exact ⟨name, change, isChange, fun _ looked _ => done _ (looked name)⟩
    | backend command =>
      obtain ⟨name, change, isChange, done⟩ := w.backendStep_withSessions (H := H) command
      exact ⟨name, change, isChange, fun _ _ _ => done _⟩
    | publisher name command =>
      exact ⟨"", id, .keep, fun _ _ held => publisherStep_withSessions held name command⟩
    | events => exact ⟨"", id, .keep, fun _ _ _ => rfl⟩
  have own := done w.sessions (fun _ => rfl) rfl
  have other := done w'.sessions (fun name => (Named.lookup_perm h.distinct h.perm name).symm)
    h.isHeld
  rw [← h.same] at other
  have kept : (w.perform H c).1 = (w.perform H c).1.withSessions (change w.sessions) :=
    congrArg Prod.fst own
  have sessions : (w.perform H c).1.sessions = change w.sessions := by rw [kept]; rfl
  rw [other]
  refine ⟨⟨?_, ?_, rfl⟩, rfl⟩
  · rw [sessions]
    exact isChange.perm h.perm
  · rw [sessions]
    exact isChange.distinct h.distinct

/-- Stores are closed once no session uses them, in whatever order these are kept. -/
theorem closeStore (h : Reordered w w') (key : StoreKey) :
    Reordered (w.closeStore key) (w'.closeStore key) := by
  have used : (w.withSessions w'.sessions).isUsed key = w.isUsed key := by
    unfold isUsed
    dsimp only [withSessions]
    rw [h.perm.any_eq]
  rw [h.same]
  unfold Workspace.closeStore
  rw [used]
  dsimp only [withSessions, attachedAt]
  split_ifs
  · exact ⟨h.perm, h.distinct, rfl⟩
  · exact ⟨h.perm, h.distinct, rfl⟩

theorem closeStores (h : Reordered w w') : Reordered w.closeStores w'.closeStores := by
  have each : ∀ (keys : List StoreKey) {w w' : Workspace}, Reordered w w' →
      Reordered (keys.foldl Workspace.closeStore w) (keys.foldl Workspace.closeStore w') := by
    intro keys
    induction keys with
    | nil => exact fun h => h
    | cons key keys ih => exact fun h => ih (h.closeStore key)
  unfold Workspace.closeStores
  rw [show w'.stores = w.stores by rw [h.same]; rfl]
  exact each _ h

theorem step (h : Reordered w w') (c : Command) :
    Reordered (w.step H c).1 (w'.step H c).1 ∧ (w'.step H c).2 = (w.step H c).2 :=
  ⟨(h.perform c).1.closeStores, (h.perform c).2⟩

/-- **The order of sessions makes no difference**: commands are answered alike, and leave what is
the same but for the order of sessions. -/
theorem run (h : Reordered w w') (commands : List Command) :
    Reordered (w.run H commands).1 (w'.run H commands).1 ∧
      (w'.run H commands).2 = (w.run H commands).2 := by
  induction commands generalizing w w' with
  | nil => exact ⟨h, rfl⟩
  | cons c rest ih =>
    obtain ⟨next, answer⟩ := h.step (H := H) c
    obtain ⟨after, answers⟩ := ih next
    refine ⟨after, ?_⟩
    show (w'.step H c).2 :: ((w'.step H c).1.run H rest).2 =
      (w.step H c).2 :: ((w.step H c).1.run H rest).2
    rw [answer, answers]

end Reordered

end Workspace

end SealedLog

import SealedLog.Proofs.Files.Looking
import SealedLog.Proofs.Session.Life
import SealedLog.Proofs.Session.Order

/-!
# Sessions that read

Rows are only ever added to a store, and a session that reads adds none. It says nothing to the
ledger, keeps its nonce, and leaves all files but those that stand beside a database.

* `Fleet.Step.extends`: every step of sessions on a store keeps the rows that are there;
* `Desk.Reads`: a step of a session that reads, from the attempt to open on;
* `FileSystem.Undisturbed`, `Desk.Untouched`: what such a step leaves as it was;
* `Desk.Reads.untouched`: each step leaves that, whether it succeeds or not.
-/

namespace SealedLog

variable {H : HashFunction}

/-! ### Rows that stay -/

theorem CallEffect.extends {s : Session} {store : Store} {c : SessionCall}
    {o : Outcome SessionAnswer} (effect : CallEffect H s store c o) :
    store.tables.Extends o.store.tables := by
  cases effect with
  | still still _ =>
    rw [still.tables]
    exact .refl _
  | created _ _ _ _ _ _ tables _ _ =>
    rw [tables]
    exact Tables.extends_withStream ..
  | written _ _ _ _ _ _ tables _ _ =>
    rw [tables]
    exact Tables.extends_withRecord ..

/-- Whatever a session does, the rows of the store are the first ones of those after it. -/
theorem Fleet.Step.extends {shared : StoreKey} {f f' : Fleet} (step : Fleet.Step H shared f f') :
    (f.stores shared).tables.Extends (f'.stores shared).tables := by
  -- what becomes of one store is of concern only if it is the shared one
  have update : ∀ {key : StoreKey} {store : Store}, (f.stores key).tables.Extends store.tables →
      (f.stores shared).tables.Extends (Function.update f.stores key store shared).tables := by
    intro key store grows
    by_cases same : shared = key
    · subst same
      rwa [Function.update_self]
    · rw [Function.update_of_ne same]
      exact .refl _
  cases step with
  | @attach i s there key mode =>
    refine update ?_
    rw [(s.attach_cases (f.stores key) key mode).1]
    exact .refl _
  | @openAt i s there fs key elsewhere opening =>
    unfold Fleet.openAt
    dsimp only
    cases (s.openAt fs key opening).answer with
    | error e => exact .refl _
    | ok attached =>
      dsimp only
      rw [Function.update_of_ne elsewhere.symm]
      exact .refl _
  | call there place c => exact update (Session.call_effect H _ _ c).extends
  | refuse there closed store c => exact .refl _
  | close there fs attached => exact .refl _
  | drop i => exact .refl _
  | disturb kept =>
    show (f.stores shared).tables.Extends _
    rw [kept]
    exact .refl _

theorem Fleet.extends_of_run {shared : StoreKey} {f f' : Fleet}
    (run : Relation.ReflTransGen (Fleet.Step H shared) f f') :
    (f.stores shared).tables.Extends (f'.stores shared).tables := by
  induction run with
  | refl => exact .refl _
  | tail _ step ih => exact ih.trans step.extends

/-! ### Opening to read -/

section

open FileSystem

variable {fs : FileSystem} {p : Path}

/-- To look for a database to read leaves the tree. -/
theorem FileSystem.findDatabase_reading {found : FileSystem × Location × FileId}
    (h : fs.findDatabase p .readOnly = some found) : found.1 = fs := by
  unfold findDatabase at h
  obtain ⟨location, -, h⟩ := Option.bind_eq_some_iff.1 h
  split at h <;> cases h
  rfl

/-- The database that a path leads to, if it leads to one. -/
def FileSystem.database? (fs : FileSystem) (p : Path) : Option Location :=
  (fs.findDatabase p .readOnly).map fun found => found.2.1

/-- A store that has just opened a file to read it. -/
def Attached.reading (fs : FileSystem) (location : Location) (id : FileId) : Attached where
  store := { engine := .connection { content := fs.content id, mode := .readOnly } }
  file := some (location, id)

theorem FileSystem.openStore_of_found {location : Location} {id : FileId}
    (h : fs.findDatabase p .readOnly = some (fs, location, id)) :
    ∃ c₀, ((Attached.reading fs location id).load fs).engine = .connection c₀ ∧
      c₀.mode = .readOnly ∧ fs.openStore p .readOnly =
        (((Attached.reading fs location id).save fs { engine := .connection c₀.visit }).2,
          (checkSchema p c₀).map fun () =>
            ((Attached.reading fs location id).save fs { engine := .connection c₀.visit }).1) := by
  obtain ⟨c₀, loaded, mode, -⟩ :=
    Attached.load_connection (a := Attached.reading fs location id) fs rfl rfl
  refine ⟨c₀, loaded, mode, ?_⟩
  unfold Attached.reading at loaded ⊢
  unfold openStore
  rw [h]
  dsimp only
  rw [loaded]

/-- To open a database to read it looks at it, whether it then is refused or not. -/
theorem FileSystem.openStore_reading (sound : fs.Sound) (p : Path) :
    fs.UndisturbedAt ((fs.database? p).map (·, .readOnly)) (fs.openStore p .readOnly).1 := by
  cases h : fs.findDatabase p .readOnly with
  | none =>
    unfold openStore database?
    rw [h]
    rfl
  | some found =>
    have same := findDatabase_reading h
    obtain ⟨-, plain⟩ := findDatabase_sound sound h
    obtain ⟨fs', location, id⟩ := found
    obtain rfl : fs' = fs := same
    have inOrder : (Attached.reading fs' location id).InOrder := by
      refine ⟨fun location' id' file => ?_, fun c location' id' engine file logged => ?_⟩
      · cases file
        exact plain
      · cases engine
        cases logged
    obtain ⟨c₀, loaded, -, opened⟩ := openStore_of_found h
    have looks : ((Attached.reading fs' location id).load fs').Looks
        { engine := .connection c₀.visit } := by
      refine ⟨rfl, fun m other => ?_, fun c other => ?_⟩
      · rw [loaded] at other
        cases other
      · rw [loaded] at other
        cases other
        exact ⟨_, rfl, (Connection.Looks.refl c₀).visit⟩
    have left := Attached.undisturbed_of_looks inOrder sound looks
    have there : fs'.database? p = some location := by
      unfold database?
      rw [h]
      rfl
    rw [opened, there]
    exact left

/-- The database that a session finds in a directory to read. -/
def Session.databaseAt (s : Session) (fs : FileSystem) (uri : Path) : Option Location :=
  match s.findBacking fs uri with
  | .error _ => none
  | .ok (backing, _) => fs.database? backing

/-- To open a directory to read it looks at its database, whether it succeeds or not. -/
theorem Session.openAt_reading (s : Session) (sound : fs.Sound) (key : StoreKey) {o : Opening}
    (reads : o.mode = .readOnly) :
    fs.UndisturbedAt ((s.databaseAt fs o.uri).map (·, .readOnly)) (s.openAt fs key o).files := by
  cases there : s.opened with
  | some opened =>
    rw [openAt_of_isOpen (by simp [isOpen, there])]
    exact .refl fs _
  | none =>
    rw [openAt_of_closed there, reads, if_pos (c := AccessMode.readOnly.isReadOnly = true) rfl]
    unfold openReading databaseAt
    cases s.findBacking fs o.uri with
    | error e => rfl
    | ok found =>
      obtain ⟨backing, files⟩ := found
      have left := openStore_reading sound backing
      dsimp only
      unfold Opening.openBacking
      rw [reads]
      rcases opened : fs.openStore backing .readOnly with ⟨fs', e | a⟩ <;> rw [opened] at left
      · exact left
      · cases o.refusal <;> exact left

end

/-! ### Steps of readers -/

namespace Desk

variable {d d' : Desk} {database : Option (Location × AccessMode)} {deed : Deed}

/-- What a session does that reads, with the database that it looks at, if it does: it attaches the
store that it is given, or opens a directory, whether that succeeds or not; it is asked something;
it closes; and the store that it has opened to read is closed. -/
inductive Reads (H : HashFunction) (d : Desk) : Option (Location × AccessMode) → Deed → Desk → Prop
  | attach (key : StoreKey) :
      Reads H d none
        (Session.deed (some key) d.store (d.session.attach d.store key .readOnly))
        (d.put (d.session.attach d.store key .readOnly).session
          (d.session.attach d.store key .readOnly).store)
  | openAt (key : StoreKey) (o : Opening) (reads : o.mode = .readOnly) :
      Reads H d ((d.session.databaseAt d.files o.uri).map (·, .readOnly)) {}
        ⟨(d.session.openAt d.files key o).session, (d.session.openAt d.files key o).files,
          match (d.session.openAt d.files key o).answer with
          | .error _ => d.attached
          | .ok attached => attached⟩
  | call (reads : d.session.mode = some .readOnly) (c : SessionCall) :
      Reads H d d.attached.database?
        (Session.deed d.session.place d.store (d.session.call H d.store c)) (d.call H c)
  | close (reads : d.session.mode = some .readOnly) :
      Reads H d none {} ⟨d.close.session, d.close.files, d.close.attached⟩
  | release {location : Location} (reads : d.attached.database? = some (location, .readOnly))
      (isShared : Bool) : Reads H d none {} { d with files := d.attached.close d.files isShared }

/-- What a step leaves as it was: the rows, the ledger, the nonce of the session, and the tree but
for what looking at the database may change. -/
structure Untouched (d : Desk) (database : Option (Location × AccessMode)) (deed : Deed)
    (d' : Desk) : Prop where
  rows : deed.after = deed.before
  silent : deed.events = []
  nonce : d'.session.registry.nonce = d.session.registry.nonce
  files : d.files.UndisturbedAt database d'.files

/-- What a session does that reads is a step like any other. -/
theorem Reads.step (reads : d.Reads H database deed d') : d.Step H d' := by
  cases reads with
  | attach key => exact .attach key .readOnly
  | openAt key o _ => exact .openAt key o
  | call _ c => exact .call c
  | close _ => exact .close
  | release _ isShared => exact .release isShared

/-- **A session that reads leaves everything as it was.** -/
theorem Reads.untouched (reads : d.Reads H database deed d') (inOrder : d.InOrder) :
    d.Untouched database deed d' := by
  cases reads with
  | attach key =>
    have same : (d.session.attach d.store key .readOnly).store = d.store := by
      unfold Session.attach
      rw [if_pos (c := AccessMode.readOnly.isReadOnly = true) rfl]
      split_ifs <;> rfl
    have kept : (d.attached.save d.files d.store).2 = d.files :=
      Attached.save_load inOrder.attached inOrder.files.rooted
    rw [same]
    refine ⟨congrArg Store.tables same, Session.events_attach .., ?_, kept⟩
    exact congrArg StreamRegistry.nonce (d.session.registry_attach ..)
  | openAt key o reads =>
    exact ⟨rfl, rfl, congrArg StreamRegistry.nonce (d.session.registry_openAt ..),
      d.session.openAt_reading inOrder.files key reads⟩
  | call reads c =>
    have still : (d.session.call H d.store c).Still d.session d.store :=
      Session.still_of_refused (Session.writable_of_reading reads) d.store c
    have lasts := Session.call_of_reading (H := H) reads (Store.Looks.viewed d.store) c (.refl _)
    exact ⟨still.tables, still.events, congrArg StreamRegistry.nonce still.registry,
      Attached.undisturbed_of_looks inOrder.attached inOrder.files lasts.store⟩
  | close reads =>
    rw [Desk.close, Session.close_of_reading reads]
    exact ⟨rfl, rfl, rfl, rfl⟩
  | release reads isShared =>
    rw [Attached.close_of_reading d.files reads isShared]
    exact ⟨rfl, rfl, rfl, rfl⟩

end Desk

end SealedLog

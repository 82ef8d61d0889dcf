import SealedLog.Proofs.Session.Founding
import SealedLog.Proofs.Session.Reader
import SealedLog.Proofs.Session.ReadBack

/-!
# Offices

Any number of sessions work in one directory tree, each with a store of its own. They come and go,
open directories for reading and for writing, are asked things, and are closed or just dropped, in
any order.

* `Seat`, `Office`: the sessions with their stores, and the tree;
* `Office.Does`: what one session does next; `Office.Run`: one step after another;
* `Founded`, `Kept`: a backing file that was made, and that it is in good order, with sound rows;
* `Seat.Sits`, `Office.InOrder`: the invariant;
* `FileSystem.Extends`, `Office.Effect`: backing files keep their rows; what a step comes to;
* `InOrder.step`: a step keeps the invariant that respects the files of others.
-/

namespace SealedLog

open FileSystem Manifest

variable {H : HashFunction}

/-- A session with the store that it has open. A closed session has none. -/
structure Seat where
  session : Session
  attached : Attached := default

/-- Sessions at work in one tree, each under a name. -/
structure Office where
  files : FileSystem
  seats : String → Option Seat

/-- A backing file that a session has made: which session, from which path, and where. -/
structure Founded where
  founder : String
  path : Path
  location : Location
  id : FileId

/-- The location that a session writes, if it has a store open for writing. -/
def Seat.writes? (s : Seat) : Option Location :=
  match s.attached.database? with
  | some (location, .readWrite) => some location
  | _ => none

namespace Office

/-- The place at which a session works. -/
def desk (f : Office) (s : Seat) : Desk := ⟨s.session, f.files, s.attached⟩

/-- The office after something has become of a seat and of the tree. -/
def put (f : Office) (i : String) (files : FileSystem) (seat : Option Seat) : Office :=
  ⟨files, Function.update f.seats i seat⟩

/-- The location that the session of this name writes. -/
def writes? (f : Office) (i : String) : Option Location := (f.seats i).bind Seat.writes?

/-- What the session of this name does next, and the backing file that it makes, if it does. A
session comes in; it opens a directory, whether that succeeds or not; it is asked something; others
of its store's operations fail; it is closed, or dropped without that. -/
inductive Does (H : HashFunction) (f : Office) (i : String) : List Founded → Office → Prop
  | enter {s : Session} (free : f.seats i = none) (closed : s.opened = none)
      (fresh : s.registry.streams = []) (harmless : IsHarmless s.config.manifestName) :
      Does H f i [] (f.put i f.files (some ⟨s, default⟩))
  | found {s : Seat} (there : f.seats i = some s) (key : StoreKey) {o : Opening}
      (writes : o.mode = .readWrite) (fits : o.Fits) {a : Attached}
      (opens : (s.session.openAt f.files key o).answer = .ok a) {name : String}
      (backing : o.backingName? = some name) {location : Location} {id : FileId}
      (file : a.file = some (location, id)) :
      Does H f i [⟨i, o.uri.join name, location, id⟩]
        (f.put i (s.session.openAt f.files key o).files
          (some ⟨(s.session.openAt f.files key o).session, a⟩))
  | look {s : Seat} (there : f.seats i = some s) (key : StoreKey) {o : Opening}
      (reads : o.mode = .readOnly) {a : Attached}
      (opens : (s.session.openAt f.files key o).answer = .ok a) :
      Does H f i [] (f.put i (s.session.openAt f.files key o).files
        (some ⟨(s.session.openAt f.files key o).session, a⟩))
  | refused {s : Seat} (there : f.seats i = some s) (key : StoreKey) {o : Opening}
      (fits : o.mode = .readWrite → o.Fits) {e : SessionError}
      (refused : (s.session.openAt f.files key o).answer = .error e) :
      Does H f i [] (f.put i (s.session.openAt f.files key o).files
        (some ⟨(s.session.openAt f.files key o).session, s.attached⟩))
  | call {s : Seat} (there : f.seats i = some s) (c : SessionCall) :
      Does H f i [] (f.put i ((f.desk s).call H c).files
        (some ⟨((f.desk s).call H c).session, ((f.desk s).call H c).attached⟩))
  | fail {s : Seat} (there : f.seats i = some s) (faults : FaultPlan) :
      Does H f i [] (f.put i f.files (some ⟨s.session, ((f.desk s).failing faults).attached⟩))
  | close {s : Seat} (there : f.seats i = some s) (isShared : Bool) :
      Does H f i [] (f.put i ((f.desk s).close.attached.close (f.desk s).close.files isShared)
        (some ⟨(f.desk s).close.session, default⟩))
  | drop {s : Seat} (there : f.seats i = some s) (isShared : Bool) :
      Does H f i [] (f.put i (s.attached.close f.files isShared) none)

/-- Steps of any sessions, one after another, with the backing files that were made. -/
inductive Run (H : HashFunction) (f₀ : Office) : List Founded → Office → Prop
  | start : Run H f₀ [] f₀
  | step {made more : List Founded} {f f' : Office} (run : Run H f₀ made f) {i : String}
      (step : f.Does H i more f') : Run H f₀ (made ++ more) f'

end Office

/-! ### The invariant -/

variable {f f' : Office} {fs fs' : FileSystem} {made more : List Founded} {m : Founded} {i : String}
  {s : Seat} {l : Location} {name : String} {own : Option Location}

/-- The backing files stay where they are, and keep their rows. -/
def FileSystem.Extends (fs fs' : FileSystem) : Prop :=
  ∀ b id, b.IsBacking → fs.node? b = some (.file id) →
    fs'.node? b = some (.file id) ∧ (fs.content id).tables.Extends (fs'.content id).tables

theorem FileSystem.Extends.refl (fs : FileSystem) : fs.Extends fs :=
  fun _ _ _ there => ⟨there, .refl _⟩

theorem FileSystem.Extends.trans {fs'' : FileSystem} (first : fs.Extends fs')
    (second : fs'.Extends fs'') : fs.Extends fs'' := by
  intro b id isBacking there
  obtain ⟨there', grows⟩ := first b id isBacking there
  obtain ⟨there'', grows'⟩ := second b id isBacking there'
  exact ⟨there'', grows.trans grows'⟩

/-- A backing file that was made is in good order and found again, and its rows are sound. -/
structure Kept (H : HashFunction) (fs : FileSystem) (m : Founded) : Prop where
  backing : ∃ l name, m.location = l ++ [name] ∧ fs.Backing l name m.id
  resolves : ∀ fs' : FileSystem, (∀ l, fs.Reaches l → fs'.Reaches l) →
    fs'.resolve m.path = some m.location
  rows : ∃ (rows : Rows) (root nonce : Nonce), (fs.content m.id).tables = rows.tables ∧
    rows.Sound H ∧ Threads H root rows.anchors nonce

theorem Kept.file (kept : Kept H fs m) : fs.node? m.location = some (.file m.id) := by
  obtain ⟨l, name, at', backing⟩ := kept.backing
  rw [at']
  exact backing.file

theorem Kept.isBacking (kept : Kept H fs m) : m.location.IsBacking := by
  obtain ⟨l, name, at', backing⟩ := kept.backing
  rw [at']
  exact backing.named

/-- A backing file is kept by what respects it. -/
theorem Kept.respects (kept : Kept H fs m) (respects : fs.Respects own fs')
    (ne : own ≠ some m.location) (tree : fs'.IsTree) : Kept H fs' m := by
  have leaves := respects.backing m.location m.id kept.isBacking kept.file ne
  obtain ⟨⟨l, name, at', backing⟩, resolves, rows⟩ := kept
  refine ⟨⟨l, name, at', ?_⟩, fun fs'' stay => ?_, ?_⟩
  · rw [at'] at leaves
    exact backing.leaves leaves (respects.directories l backing.reaches) tree
  · exact resolves fs'' fun l reaches => stay l (respects.directories l reaches)
  · rw [leaves.content]
    exact rows

/-- A session keeps the file that it serves. -/
theorem Kept.of_serves {d : Desk} (serves : d.Serves l name m.id) (at' : m.location = l ++ [name])
    {root : Nonce} {rows : Rows} {s : Session} (keeps : s.Keeps H root d.store rows)
    (resolves : ∀ fs' : FileSystem, (∀ l, d.files.Reaches l → fs'.Reaches l) →
      fs'.resolve m.path = some m.location) : Kept H d.files m where
  backing := ⟨l, name, at', serves.backing⟩
  resolves := resolves
  rows := ⟨rows, root, s.registry.nonce, serves.tables.symm.trans keeps.holds, keeps.sound,
    keeps.threads⟩

/-- How a session stands: it is closed and has no streams; or it reads; or it writes a backing file
that it has made, and follows the streams in it. -/
inductive Seat.Sits (H : HashFunction) (fs : FileSystem) (made : List Founded) (i : String) :
    Seat → Prop
  | closed {s : Seat} (closed : s.session.opened = none) (fresh : s.session.registry.streams = [])
      (none : s.attached.file = none) : Sits H fs made i s
  | reads {s : Seat} (mode : s.session.mode = some .readOnly) (inOrder : s.attached.InOrder)
      {location : Location} (reads : s.attached.database? = some (location, .readOnly)) :
      Sits H fs made i s
  | writes {s : Seat} (mode : s.session.mode = some .readWrite) {m : Founded} (mem : m ∈ made)
      (founder : m.founder = i) {l : Location} {name : String} (at' : m.location = l ++ [name])
      (serves : Desk.Serves ⟨s.session, fs, s.attached⟩ l name m.id) {root : Nonce} {rows : Rows}
      (keeps : s.session.Keeps H root (s.attached.load fs) rows) : Sits H fs made i s

namespace Seat

theorem writes?_of_no_file (none : s.attached.file = none) : s.writes? = Option.none := by
  unfold writes? Attached.database?
  rw [none]
  cases s.attached.store.engine <;> rfl

theorem writes?_of_reads {location : Location}
    (reads : s.attached.database? = some (location, .readOnly)) : s.writes? = none := by
  rw [writes?, reads]

theorem writes?_of_serves {id : FileId} {session : Session}
    (serves : Desk.Serves ⟨session, fs, s.attached⟩ l name id) :
    s.writes? = some (l ++ [name]) := by
  obtain ⟨c, engine, mode⟩ := serves.opened
  have file := serves.sees.file
  dsimp only at engine file
  unfold writes? Attached.database?
  rw [engine, file]
  dsimp only
  rw [mode]

/-- What a session writes it has made. -/
theorem Sits.exists_founded (sits : Sits H fs made i s) {b : Location}
    (writes : s.writes? = some b) : ∃ m ∈ made, m.founder = i ∧ m.location = b := by
  cases sits with
  | closed _ _ none =>
    rw [writes?_of_no_file none] at writes
    cases writes
  | reads _ _ reads =>
    rw [writes?_of_reads reads] at writes
    cases writes
  | writes _ mem founder at' serves _ =>
    rw [writes?_of_serves serves] at writes
    cases writes
    exact ⟨_, mem, founder, at'⟩

/-- Nobody sits where one session sits but this one. -/
theorem Sits.only (sits : Sits H fs made i s)
    (harmless : IsHarmless s.session.config.manifestName) :
    ∀ s', some s = some s' →
      IsHarmless s'.session.config.manifestName ∧ s'.Sits H fs made i := by
  rintro _ ⟨⟩
  exact ⟨harmless, sits⟩

/-- A session stands as it did when others respect its file. -/
theorem Sits.respects (sits : Sits H fs made i s) (respects : fs.Respects own fs')
    (ne : ∀ b, s.writes? = some b → own ≠ some b) (sound : fs'.Sound) (more : List Founded) :
    Sits H fs' (made ++ more) i s := by
  cases sits with
  | closed closed fresh none => exact .closed closed fresh none
  | reads mode inOrder reads => exact .reads mode inOrder reads
  | writes mode mem founder at' serves keeps =>
    have leaves := respects.backing _ _ serves.backing.named serves.backing.file
      (ne _ (writes?_of_serves serves))
    obtain ⟨serves', tables⟩ := serves.leaves leaves
      (respects.directories _ serves.backing.reaches) sound
    exact .writes mode (List.mem_append_left _ mem) founder at' serves' (keeps.disturb tables)

end Seat

namespace Office

/-- The tree is sound, all backing files that were made are kept, each is made once, and every
session stands in order and has a manifest that stands in nobody's way. -/
structure InOrder (H : HashFunction) (f : Office) (made : List Founded) : Prop where
  sound : f.files.Sound
  kept : ∀ m ∈ made, Kept H f.files m
  once : (made.map Founded.location).Nodup
  harmless : ∀ i s, f.seats i = some s → IsHarmless s.session.config.manifestName
  sits : ∀ i s, f.seats i = some s → s.Sits H f.files made i

/-- What a step comes to: the other seats stay, the backing files of others are respected, and all
keep their rows; and what is made is made where no file was. -/
structure Effect (H : HashFunction) (f : Office) (made : List Founded) (i : String)
    (more : List Founded) (f' : Office) : Prop where
  sound : f'.files.Sound
  respects : f.files.Respects (f.writes? i) f'.files
  grows : f.files.Extends f'.files
  seats : ∀ j, j ≠ i → f'.seats j = f.seats j
  kept : ∀ m ∈ made, f.writes? i = some m.location → Kept H f'.files m
  new : ∀ m ∈ more, Kept H f'.files m ∧ ∀ id, f.files.node? m.location ≠ some (.file id)
  once : (more.map Founded.location).Nodup
  sits : ∀ s, f'.seats i = some s →
    IsHarmless s.session.config.manifestName ∧ s.Sits H f'.files (made ++ more) i

/-- A step that respects all backing files keeps those that were made. -/
theorem Effect.of_respects {files : FileSystem} {seat : Option Seat} (inOrder : f.InOrder H made)
    (sound : files.Sound) (respects : f.files.Respects none files)
    (new : ∀ m ∈ more, Kept H files m ∧ ∀ id, f.files.node? m.location ≠ some (.file id))
    (once : (more.map Founded.location).Nodup)
    (sits : ∀ s, seat = some s →
      IsHarmless s.session.config.manifestName ∧ s.Sits H files (made ++ more) i) :
    f.Effect H made i more (f.put i files seat) where
  sound := sound
  respects := respects.of_none _
  grows b id isBacking there := by
    have leaves := respects.backing b id isBacking there nofun
    refine ⟨leaves.file, ?_⟩
    show (f.files.content id).tables.Extends (files.content id).tables
    rw [leaves.content]
    exact .refl _
  seats j ne := Function.update_of_ne ne _ _
  kept m mem _ := (inOrder.kept m mem).respects respects nofun sound.tree
  new := new
  once := once
  sits s there := by
    have same : Function.update f.seats i seat i = seat := Function.update_self ..
    exact sits s (same.symm.trans there)

/-- So does one that makes none. -/
theorem Effect.of_none_made {files : FileSystem} {seat : Option Seat} (inOrder : f.InOrder H made)
    (sound : files.Sound) (respects : f.files.Respects none files)
    (sits : ∀ s, seat = some s →
      IsHarmless s.session.config.manifestName ∧ s.Sits H files made i) :
    f.Effect H made i [] (f.put i files seat) := by
  apply Effect.of_respects inOrder sound respects
  · exact fun m mem => nomatch mem
  · exact List.nodup_nil
  · rw [List.append_nil]
    exact sits

namespace InOrder

/-- A backing file has one founder. -/
theorem eq_of_location (inOrder : f.InOrder H made) {m m' : Founded} (mem : m ∈ made)
    (mem' : m' ∈ made) (same : m.location = m'.location) : m = m' :=
  List.inj_on_of_nodup_map inOrder.once mem mem' same

/-- No two sessions write one file. -/
theorem writes?_ne (inOrder : f.InOrder H made) {j : String} (ne : j ≠ i)
    (there : f.seats j = some s) {b : Location} (writes : s.writes? = some b) :
    f.writes? i ≠ some b := by
  intro writes'
  obtain ⟨s', there', writes'⟩ := Option.bind_eq_some_iff.1 writes'
  obtain ⟨m, mem, founder, at'⟩ := (inOrder.sits j s there).exists_founded writes
  obtain ⟨m', mem', founder', at''⟩ := (inOrder.sits i s' there').exists_founded writes'
  rw [inOrder.eq_of_location mem mem' (at'.trans at''.symm)] at founder
  exact ne (founder.symm.trans founder')

/-- **The invariant is kept by every step of this effect.** -/
theorem step (inOrder : f.InOrder H made) (effect : f.Effect H made i more f') :
    f'.InOrder H (made ++ more) := by
  have kept : ∀ m ∈ made, Kept H f'.files m := by
    intro m mem
    by_cases own : f.writes? i = some m.location
    · exact effect.kept m mem own
    · exact (inOrder.kept m mem).respects effect.respects own effect.sound.tree
  refine ⟨effect.sound, fun m mem => ?_, ?_, fun j s there => ?_, fun j s there => ?_⟩
  · rcases List.mem_append.1 mem with old | new
    · exact kept m old
    · exact (effect.new m new).1
  · rw [List.map_append]
    apply List.nodup_append.2 ⟨inOrder.once, effect.once, _⟩
    -- where a file is made now, none was made before
    intro b old b' new same
    obtain ⟨m, mem, rfl⟩ := List.mem_map.1 old
    obtain ⟨m', mem', rfl⟩ := List.mem_map.1 new
    apply (effect.new m' mem').2 m.id
    rw [← same]
    exact (inOrder.kept m mem).file
  · by_cases same : j = i
    · subst same
      exact (effect.sits s there).1
    · rw [effect.seats j same] at there
      exact inOrder.harmless j s there
  · by_cases same : j = i
    · subst same
      exact (effect.sits s there).2
    · rw [effect.seats j same] at there
      exact (inOrder.sits j s there).respects effect.respects
        (fun b writes => inOrder.writes?_ne same there writes) effect.sound more

end InOrder

end Office

end SealedLog

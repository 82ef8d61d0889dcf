import SealedLog.Proofs.Files.Rooted
import SealedLog.Proofs.Session.Lasting

/-!
# Stores in order

A store that has a file open found it under plain names, and once it works on a log it has that log
open as well. This holds from the opening on, through every change that the store makes.

* `Location.IsPlain`, `FileSystem.place_of_isPlain`: plain names lead nowhere else;
* `Connection.Joins`: a log is taken up only if it stands beside the file;
* `Attached.InOrder`, `Attached.InOrder.save`: every store stays in order;
* `FileSystem.openStore_inOrder`: and begins so.
-/

namespace SealedLog

/-! ### Locations -/

namespace Location

variable {location : Location}

/-- Names are followed as they are, except for dots. -/
def IsPlain (location : Location) : Prop := ∀ name ∈ location, name ≠ "." ∧ name ≠ ".."

theorem IsPlain.beside (plain : location.IsPlain) {suffix : String} {c : Char}
    (ends : suffix.toList.getLast? = some c) (other : c ≠ '.') :
    (location.beside suffix).IsPlain := by
  have apart : ".".toList.getLast? = some '.' ∧ "..".toList.getLast? = some '.' := by decide
  intro name mem
  rcases List.mem_append.1 mem with outer | last
  · exact plain name (List.dropLast_subset _ outer)
  · rw [List.mem_singleton.1 last]
    refine ⟨append_ne ends ?_ _, append_ne ends ?_ _⟩
    · rw [apart.1]
      exact fun same => other (Option.some.inj same).symm
    · rw [apart.2]
      exact fun same => other (Option.some.inj same).symm

theorem IsPlain.index (plain : location.IsPlain) : location.index.IsPlain :=
  plain.beside (c := 'm') (by decide) (by decide)

theorem IsPlain.log (plain : location.IsPlain) : location.log.IsPlain :=
  plain.beside (c := 'l') (by decide) (by decide)

/-- What stands beside a location is told apart by its endings. -/
theorem beside_ne (location : Location) {suffix other : String} (ne : suffix ≠ other) :
    location.beside suffix ≠ location.beside other := by
  intro same
  have lasts := congrArg (fun l : Location => l.getLast?.map String.toList) same
  simp only [Location.beside, List.getLast?_concat, Option.map_some, Option.some.injEq,
    String.toList_append] at lasts
  exact ne (String.toList_injective (List.append_cancel_left lasts))

end Location

/-- Where a path leads. -/
def Found.place : Found → Location
  | .directory location => location
  | .file location _ => location
  | .vacant location => location

namespace FileSystem

variable {fs : FileSystem} {location : Location}

theorem place_of_isPlain (plain : location.IsPlain) {here : Location} {what : Found}
    (found : fs.walk here location = .ok what) : Found.place what = here ++ location := by
  induction location generalizing here with
  | nil =>
    cases found
    exact (List.append_nil here).symm
  | cons name rest ih =>
    obtain ⟨notHere, notUp⟩ := plain name List.mem_cons_self
    have inside : fs.walk (here ++ [name]) rest = .ok what →
        Found.place what = here ++ [name] ++ rest :=
      ih fun n mem => plain n (List.mem_cons_of_mem _ mem)
    rw [walk_cons, if_neg notHere, if_neg notUp] at found
    split_ifs at found
    split at found
    · rw [inside found]
      simp
    · cases found
      rfl
    · cases found
    · cases found
      rfl
    · cases found

end FileSystem

/-! ### Logs -/

/-- What becomes of the log: it stays or is removed, and is taken up only if it has anything. -/
structure Connection.Joins (c₀ c : Connection) : Prop where
  log : c.log = c₀.log ∨ c.log = .nothing
  logged : c.isLogged = true → c₀.isLogged = true ∨ c₀.log.isFilled = true ∧ c.log = c₀.log

/-- The connection came from the one of this engine. -/
def Engine.Joins (engine : Engine) (c : Connection) : Prop :=
  ∃ c₀, engine = .connection c₀ ∧ c₀.Joins c

theorem Connection.Joins.settle {c₀ c : Connection} (joins : c₀.Joins c) : c₀.Joins c.settle := by
  obtain ⟨log, isLogged⟩ | ⟨direct, filled, ⟨gone, direct'⟩ | ⟨log, -⟩⟩ := c.beside_settle.log
  · exact ⟨log ▸ joins.log, fun logged => log ▸ joins.logged (isLogged ▸ logged)⟩
  · exact ⟨.inr gone, fun logged => absurd logged (by simp [direct'])⟩
  · have same : c.log = c₀.log := joins.log.resolve_right fun none => by
      rw [none] at filled
      cases filled
    exact ⟨.inl (log.trans same), fun _ => .inr ⟨same ▸ filled, log.trans same⟩⟩

/-- Every statement keeps to this. -/
theorem Engine.joins_lasting (engine : Engine) :
    Connection.Lasting engine.Joins engine.Joins where
  settle h := by
    obtain ⟨c₀, here, joins⟩ := h
    exact ⟨c₀, here, joins.settle⟩
  read h _ := by
    obtain ⟨c₀, here, joins⟩ := h
    exact ⟨c₀, here, joins.settle⟩
  weaken h := h
  write h written := by
    obtain ⟨c₀, here, joins⟩ := h
    obtain ⟨-, rfl⟩ := Connection.write_eq_ok written
    exact ⟨c₀, here, joins.log, joins.logged⟩
  noted _ _ _ h := by
    obtain ⟨c₀, here, joins⟩ := h
    exact ⟨c₀, here, joins.log, joins.logged⟩
  readNoted _ _ _ h := by
    obtain ⟨c₀, here, joins⟩ := h
    exact ⟨c₀, here, joins.log, joins.logged⟩
  begun h _ _ := by
    obtain ⟨c₀, here, joins⟩ := h
    exact ⟨c₀, here, joins.log, joins.logged⟩

/-- The store came from a store by what sessions ask for. -/
def Store.Joins (s₀ s : Store) : Prop := ∀ c, s.engine = .connection c → s₀.engine.Joins c

theorem Store.Joins.refl (s : Store) : s.Joins s := fun c engine =>
  ⟨c, engine, .inl rfl, .inl⟩

theorem Store.joins_lasting (s₀ : Store) : Store.Lasting s₀.Joins := s₀.engine.joins_lasting.store

theorem Store.Joins.createSchema {s₀ s : Store} (joins : s₀.Joins s) : s₀.Joins s.createSchema.1 :=
  s₀.engine.joins_lasting.store_createSchema joins

/-- What is filled is a file that has octets. -/
theorem FileSystem.walk_of_isFilled {fs : FileSystem} {location : Location}
    (plain : location.IsPlain) (filled : (fs.companion location).isFilled = true) :
    ∃ id, fs.walk [] location = .ok (.file location id) ∧ (fs.content id).hasOctets = true := by
  unfold companion at filled
  split at filled
  · cases filled
  · rename_i loc id found
    obtain rfl : loc = location := place_of_isPlain plain found
    exact ⟨id, found, filled⟩
  · cases filled

/-- A log stays where it is when the journal beside it is taken out. -/
theorem FileSystem.fileAt?_log {fs : FileSystem} {location : Location} (plain : location.IsPlain)
    (filled : (fs.companion location.log).isFilled = true) :
    (fs.fileAt? location.log).isSome = true ∧
      ((fs.removeAt location.journal).fileAt? location.log).isSome = true := by
  obtain ⟨id, there, -⟩ := walk_of_isFilled plain.log filled
  refine ⟨by rw [fileAt?, there]; rfl, ?_⟩
  obtain ⟨front, name, l, split, leads, entry, at', node⟩ := leads_of_walk_file there
  -- what is taken out stands in the directory of the log, under another name
  have outer : location.dropLast = l := by
    have same := congrArg List.dropLast at'
    rwa [Location.log, Location.beside, List.dropLast_concat, List.dropLast_concat] at same
  have apart : ¬ location.journal <+: location.log := by
    intro below
    exact location.beside_ne (by decide) (below.eq_of_length (by simp [Location.log,
      Location.journal, Location.beside]))
  have outside : ¬ location.journal <+: l := by
    intro below
    have lengths := below.length_le
    rw [Location.journal, Location.beside, outer, List.length_append, List.length_singleton]
      at lengths
    omega
  have kept := fs.node?_removeAt apart
  have reaches := (leads.reaches .root).removeAt_of_outside outside
  rw [node, at'] at kept
  rw [at', fileAt?, reaches.walk_concat entry, found, kept]
  rfl

/-! ### Stores -/

open FileSystem

namespace Attached

variable {a : Attached} {fs : FileSystem} {location : Location} {id : FileId} {store : Store}

/-- What holds of every store that has a file open: the file was found under plain names, and a
connection that works on a log has one. -/
structure InOrder (a : Attached) : Prop where
  plain : ∀ location id, a.file = some (location, id) → location.IsPlain
  logged : ∀ c location id, a.store.engine = .connection c → a.file = some (location, id) →
    c.isLogged = true → a.log.isSome = true

/-- A connection is told what stands beside its file. -/
theorem load_connection {c : Connection} (fs : FileSystem) (engine : a.store.engine = .connection c)
    (file : a.file = some (location, id)) : ∃ c₀, (a.load fs).engine = .connection c₀ ∧
      c₀.mode = c.mode ∧ c₀.isLogged = c.isLogged ∧ c₀.journal = fs.companion location.journal ∧
      c₀.log = fs.companion location.log := by
  unfold load
  rw [engine, file]
  exact ⟨_, rfl, rfl, rfl, rfl, rfl⟩

/-- What a connection was told when its file was looked up. -/
theorem connection_of_load {c₀ : Connection} (loaded : (a.load fs).engine = .connection c₀)
    (file : a.file = some (location, id)) :
    ∃ c, a.store.engine = .connection c ∧ c₀.mode = c.mode ∧ c₀.isLogged = c.isLogged ∧
      c₀.hasLooked = false ∧ c₀.journal = fs.companion location.journal ∧
      c₀.log = fs.companion location.log := by
  unfold load at loaded
  cases engine : a.store.engine with
  | memory m =>
    rw [engine] at loaded
    dsimp only at loaded
    rw [engine] at loaded
    cases loaded
  | connection c =>
    rw [engine, file] at loaded
    cases loaded
    exact ⟨c, rfl, rfl, rfl, rfl, rfl, rfl⟩

theorem InOrder.of_no_file (none : a.file = Option.none) : a.InOrder where
  plain location id file := by
    rw [none] at file
    cases file
  logged c location id _ file := by
    rw [none] at file
    cases file

theorem save_file (a : Attached) (fs : FileSystem) (store : Store) :
    (a.save fs store).1.file = a.file := by
  unfold Attached.save
  split
  · split_ifs <;> rfl
  · rfl

theorem save_store (a : Attached) (fs : FileSystem) (store : Store) :
    (a.save fs store).1.store = store := by
  unfold Attached.save
  split
  · split_ifs <;> rfl
  · rfl

theorem save_of_no_file (none : a.file = none) (fs : FileSystem) (store : Store) :
    a.save fs store = ({ a with store := store }, fs) := by
  unfold Attached.save
  rw [none]
  cases store.engine <;> rfl

/-- **A store stays in order** when it is put back, whatever it was asked. -/
theorem InOrder.save (inOrder : a.InOrder) (joins : (a.load fs).Joins store) :
    (a.save fs store).1.InOrder := by
  have file := a.save_file fs store
  have same := a.save_store fs store
  constructor
  · intro location id there
    exact inOrder.plain location id (file ▸ there)
  · intro c location id engine there logged
    rw [same] at engine
    rw [file] at there
    obtain ⟨c₀, before, joins⟩ := joins c engine
    obtain ⟨c₁, engine', -, isLogged, -, -, log⟩ := connection_of_load before there
    have has : (a.log.or (((fs.clear location.journal c.journal).clear location.log c.log).fileAt?
        location.log)).isSome = true := by
      rcases joins.logged logged with working | ⟨filled, kept⟩
      · rw [Option.isSome_or, inOrder.logged c₁ location id engine' there (isLogged ▸ working)]
        rfl
      · rw [log] at filled kept
        have stays : ∀ fs' : FileSystem, fs'.clear location.log c.log = fs' := by
          intro fs'
          rw [kept]
          cases there : fs.companion location.log with
          | nothing => simp [there, Companion.isFilled] at filled
          | directory | file => rfl
        obtain ⟨here, after⟩ := fileAt?_log (inOrder.plain location id there) filled
        rw [stays, Option.isSome_or, Bool.or_eq_true]
        refine .inr ?_
        cases c.journal with
        | nothing => exact after
        | directory | file => exact here
    unfold Attached.save
    rw [engine, there]
    dsimp only
    rw [if_pos logged]
    exact has

theorem InOrder.failing (inOrder : a.InOrder) (faults : FaultPlan) :
    ({ a with store := { a.store with faults := faults } } : Attached).InOrder :=
  ⟨inOrder.plain, inOrder.logged⟩

end Attached

namespace FileSystem

variable {fs : FileSystem} {p : Path} {mode : AccessMode}

theorem Reaches.isPlain {l : Location} (reaches : fs.Reaches l) : l.IsPlain := by
  induction reaches with
  | root => exact fun _ mem => nomatch mem
  | enter _ entry _ ih =>
    intro name mem
    rcases List.mem_append.1 mem with outer | last
    · exact ih name outer
    · rw [List.mem_singleton.1 last]
      exact ⟨entry.notHere, entry.notUp⟩

theorem Reaches.isPlain_concat {l : Location} {name : String} (reaches : fs.Reaches l)
    (entry : IsEntry name) : (l ++ [name] : Location).IsPlain := by
  intro other mem
  rcases List.mem_append.1 mem with outer | last
  · exact reaches.isPlain other outer
  · rw [List.mem_singleton.1 last]
    exact ⟨entry.notHere, entry.notUp⟩

/-- A database is found in a sound tree under plain names, or made there. -/
theorem findDatabase_sound {found : FileSystem × Location × FileId} (sound : fs.Sound)
    (h : fs.findDatabase p mode = some found) : found.1.Sound ∧ found.2.1.IsPlain := by
  unfold findDatabase at h
  obtain ⟨location, -, h⟩ := Option.bind_eq_some_iff.1 h
  split at h
  · rename_i there
    cases h
    obtain ⟨front, name, l, -, leads, entry, rfl, -⟩ := leads_of_walk_file there
    exact ⟨sound, (leads.reaches .root).isPlain_concat entry⟩
  · rename_i vacant
    split_ifs at h
    cases h
    obtain ⟨front, name, l, -, leads, entry, rfl, -⟩ := leads_of_walk_vacant vacant
    exact ⟨sound.addFile vacant _, (leads.reaches .root).isPlain_concat entry⟩
  · cases h

/-- A database that is in no file has nothing to read, so that it is opened for writing. -/
theorem openPrivate_eq_ok {a : Attached} (opens : openPrivate p mode = .ok a) :
    mode = .readWrite ∧ a.file = none := by
  unfold openPrivate at opens
  dsimp only at opens
  split_ifs at opens
  cases mode with
  | readOnly => cases opens
  | readWrite =>
    cases opens
    exact ⟨rfl, rfl⟩

/-- **A store that was just opened is in order**, and the tree stays sound. -/
theorem openStore_inOrder (sound : fs.Sound) (p : Path) (mode : AccessMode) :
    (fs.openStore p mode).1.Sound ∧ ∀ a, (fs.openStore p mode).2 = .ok a → a.InOrder := by
  unfold openStore
  cases h : fs.findDatabase p mode with
  | none => exact ⟨sound, fun a opened => .of_no_file (openPrivate_eq_ok opened).2⟩
  | some found =>
    obtain ⟨fs', location, id⟩ := found
    obtain ⟨sound', plain⟩ := findDatabase_sound sound h
    let new : Attached :=
      { store := { engine := .connection { content := fs'.content id, mode := mode } }
        file := some (location, id) }
    have inOrder : new.InOrder := by
      refine ⟨fun location' id' file => ?_, fun c location' id' engine file logged => ?_⟩
      · cases file
        exact plain
      · cases engine
        cases logged
    obtain ⟨c₀, loaded, -⟩ := Attached.load_connection (a := new) fs' rfl rfl
    have visited : (new.load fs').Joins { engine := .connection c₀.visit } := by
      intro c engine
      cases engine
      exact (new.load fs').engine.joins_lasting.visit ⟨c₀, loaded, .inl rfl, .inl⟩
    dsimp only
    rw [show (new.load fs').engine = .connection c₀ from loaded]
    cases mode with
    | readWrite =>
      refine ⟨sound', fun a opened => ?_⟩
      cases opened
      exact inOrder
    | readOnly =>
      refine ⟨sound'.save new _, fun a opened => ?_⟩
      obtain ⟨_, _, rfl⟩ := Except.map_eq_ok_iff.1 opened
      exact inOrder.save visited

end FileSystem

end SealedLog

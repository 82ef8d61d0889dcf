import SealedLog.Proofs.Files.Storage
import SealedLog.Proofs.Store.Settled

/-!
# Trees without loose parts

Everything that the operations put into a directory tree stands in a directory. Where a path finds
nothing there is nothing to take out of such a tree, and where it finds a file nothing else goes
with it.

* `FileSystem.IsRooted`: everything stands in a directory, under a name that fits;
* `IsRooted.removeAt_of_nothing`, `IsRooted.node?_removeAt_of_ne`: what taking something out
  changes;
* `Names`, `write_cases`: a path that leads to a name in a directory, and what writing to it does;
* `FileSystem.Sound`: a rooted tree without links;
* `Sound.removeAt`, `Sound.addFile`, `Sound.makeDirectories`, `Sound.write`, `Sound.save`: it stays
  sound.
-/

namespace SealedLog

theorem Location.beside_ne_nil (l : Location) (suffix : String) : l.beside suffix ≠ [] := by
  simp [Location.beside]

namespace FileSystem

variable {fs fs' : FileSystem} {l loc other : Location} {name : String} {segments : List String}

/-- Everything that stands in the tree stands in a directory, under a name that fits. -/
def IsRooted (fs : FileSystem) : Prop :=
  ∀ n ∈ fs.nodes, ∃ l name, n.1 = l ++ [name] ∧ fs.Reaches l ∧ IsEntry name

theorem isRooted_empty : ({} : FileSystem).IsRooted := fun _ mem => nomatch mem

theorem node?_isSome_of_mem {n : Location × Node} (mem : n ∈ fs.nodes) :
    (fs.node? n.1).isSome = true := by
  unfold node?
  split_ifs with root
  · rfl
  · cases there : fs.nodes.lookup n.1 with
    | some node => rfl
    | none => exact absurd (List.lookup_eq_none_iff.1 there n mem) (by simp)

theorem Reaches.companion (reaches : fs.Reaches l) : fs.companion l = .directory := by
  have there : fs.walk [] l = .ok (.directory l) := by
    have := reaches.leads.walk_append []
    rwa [List.append_nil] at this
  rw [FileSystem.companion, there]

/-- Directories stay that do not stand below what is taken out. -/
theorem Reaches.removeAt_of_outside (reaches : fs.Reaches l) (outside : ¬ loc <+: l) :
    (fs.removeAt loc).Reaches l := by
  induction reaches with
  | root => exact .root
  | @enter l name _ entry there ih =>
    refine .enter (ih fun below => outside (below.trans (List.prefix_append l [name]))) entry ?_
    rw [node?_removeAt fs outside, there]

/-- Segments that lead to a file lead to a name in a directory. -/
theorem leads_of_walk_file {id : FileId} (h : fs.walk l segments = .ok (.file loc id)) :
    ∃ front name l', segments = front ++ [name] ∧ fs.Leads l front l' ∧ IsEntry name ∧
      loc = l' ++ [name] ∧ fs.node? loc = some (.file id) := by
  induction segments generalizing l with
  | nil => cases h
  | cons name segments ih =>
    rw [walk_cons] at h
    split_ifs at h with here up long
    · obtain ⟨front, last, l', rfl, leads, entry⟩ := ih h
      exact ⟨name :: front, last, l', rfl, here ▸ .here leads, entry⟩
    · obtain ⟨front, last, l', rfl, leads, entry⟩ := ih h
      exact ⟨name :: front, last, l', rfl, up ▸ .up leads, entry⟩
    · have entry : IsEntry name := ⟨here, up, Nat.not_lt.1 long⟩
      split at h
      · rename_i there
        obtain ⟨front, last, l', rfl, leads, entry'⟩ := ih h
        exact ⟨name :: front, last, l', rfl, .enter entry there leads, entry'⟩
      · rename_i there
        cases h
        exact ⟨[], name, l, rfl, .done, entry, rfl, there⟩
      all_goals cases h

namespace IsRooted

/-- Below what is no directory there is nothing, and where nothing is found there is nothing. -/
theorem eq_of_prefix (rooted : fs.IsRooted) {n : Location × Node} (mem : n ∈ fs.nodes)
    (below : loc <+: n.1) (noDirectory : fs.companion loc ≠ .directory) :
    n.1 = loc ∧ fs.companion loc ≠ .nothing := by
  obtain ⟨l, name, at', reaches, entry⟩ := rooted n mem
  rw [at'] at below
  rcases List.prefix_concat_iff.1 below with rfl | above
  · refine ⟨at', fun nothing => ?_⟩
    have there := node?_isSome_of_mem mem
    rw [at'] at there
    rw [companion_of_reaches reaches entry] at nothing
    cases node : fs.node? (l ++ [name]) with
    | none => simp [node] at there
    | some node' => cases node' <;> simp [node] at nothing
  · exact absurd (reaches.of_prefix above).companion noDirectory

/-- **Where nothing is found, there is nothing to take out.** -/
theorem removeAt_of_nothing (rooted : fs.IsRooted) (nothing : fs.companion loc = .nothing) :
    fs.removeAt loc = fs := by
  have kept : fs.nodes.filter (fun n => !loc.isPrefixOf n.1) = fs.nodes := by
    refine List.filter_eq_self.2 fun n mem => ?_
    rw [Bool.not_eq_true', ← Bool.not_eq_true, List.isPrefixOf_iff_prefix]
    intro below
    exact (rooted.eq_of_prefix mem below (by rw [nothing]; exact nofun)).2 nothing
  rw [FileSystem.removeAt, kept]

/-- Nothing else goes with what is no directory. -/
theorem node?_removeAt_of_ne (rooted : fs.IsRooted) (noDirectory : fs.companion loc ≠ .directory)
    (ne : other ≠ loc) : (fs.removeAt loc).node? other = fs.node? other := by
  by_cases below : loc <+: other
  · -- nothing stood there before either
    by_cases root : other = []
    · rw [root]
      rfl
    · have before : fs.node? other = none := by
        rw [node?_of_ne_nil root, List.lookup_eq_none_iff]
        intro n mem
        rw [bne_iff_ne]
        rintro rfl
        exact ne (rooted.eq_of_prefix mem below noDirectory).1
      rw [before]
      exact node?_removeAt_eq_none before
  · exact node?_removeAt fs below

/-- What stands in the tree stands in a directory, under a name that fits. -/
theorem exists_entry (rooted : fs.IsRooted) (ne : loc ≠ []) {node : Node}
    (there : fs.node? loc = some node) :
    ∃ l name, loc = l ++ [name] ∧ fs.Reaches l ∧ IsEntry name := by
  rw [node?_of_ne_nil ne] at there
  obtain ⟨before, after, split, -⟩ := List.lookup_eq_some_iff.1 there
  have mem : (loc, node) ∈ fs.nodes := by
    rw [split]
    exact List.mem_append_right _ List.mem_cons_self
  exact rooted _ mem

theorem noDirectory (rooted : fs.IsRooted) (ne : loc ≠ [])
    (noDirectory : fs.companion loc ≠ .directory) : fs.node? loc ≠ some .directory := by
  intro there
  obtain ⟨l, name, rfl, reaches, entry⟩ := rooted.exists_entry ne there
  rw [companion_of_reaches reaches entry, there] at noDirectory
  exact noDirectory rfl

/-- Directories stay when something else is taken out. -/
theorem reaches_removeAt (rooted : fs.IsRooted) (ne : loc ≠ [])
    (noDirectory : fs.companion loc ≠ .directory) (reaches : fs.Reaches l) :
    (fs.removeAt loc).Reaches l :=
  reaches.removeAt loc (rooted.noDirectory ne noDirectory)

/-- What is taken out takes all below it along, so that what is left stands where it stood. -/
theorem removeAt (rooted : fs.IsRooted) (loc : Location) : (fs.removeAt loc).IsRooted := by
  intro n mem
  obtain ⟨kept, outside⟩ := List.mem_filter.1 mem
  obtain ⟨l, name, at', reaches, entry⟩ := rooted n kept
  refine ⟨l, name, at', reaches.removeAt_of_outside fun below => ?_, entry⟩
  rw [List.isPrefixOf_iff_prefix.2 (below.trans (at' ▸ List.prefix_append l [name]))] at outside
  cases outside

/-- A tree stays rooted when something is put where a path found nothing. -/
theorem concat (rooted : fs.IsRooted) {node : Node}
    (vacant : fs.walk [] segments = .ok (.vacant loc))
    (grown : fs'.nodes = fs.nodes ++ [(loc, node)]) : fs'.IsRooted := by
  have stay : ∀ l, fs.Reaches l → fs'.Reaches l := fun l reaches => reaches.of_append grown
  intro n mem
  rw [grown] at mem
  rcases List.mem_append.1 mem with old | new
  · obtain ⟨l, name, at', reaches, entry⟩ := rooted n old
    exact ⟨l, name, at', stay l reaches, entry⟩
  · rw [List.mem_singleton.1 new]
    obtain ⟨front, name, l, -, leads, entry, rfl, -⟩ := leads_of_walk_vacant vacant
    exact ⟨l, name, rfl, stay l (leads.reaches .root), entry⟩

end IsRooted

theorem node?_of_vacant (vacant : fs.walk [] segments = .ok (.vacant loc)) :
    fs.node? loc = none := by
  obtain ⟨-, -, -, -, -, -, -, none⟩ := leads_of_walk_vacant vacant
  exact none

theorem walk_of_locate {p : Path} {found : Found} (located : fs.locate p = .ok found) :
    fs.walk [] p.segments = .ok found := by
  unfold locate at located
  split at located
  · cases located
  · split at located
    · rename_i there
      split_ifs at located
      cases located
      exact there
    · exact located

section

variable {p : Path} {octets : Bytes}

theorem checkWritable_eq_ok_iff : fs.checkWritable p = .ok () ↔ p.endsInSlash = false := by
  unfold checkWritable
  split_ifs with slash
  · refine iff_of_false ?_ (by simp [slash])
    split <;> exact nofun
  · exact iff_of_true rfl (Bool.eq_false_iff.2 slash)

/-- The path leads to a name in a directory, whatever stands there. -/
structure Names (fs : FileSystem) (p : Path) (loc : Location) : Prop where
  fine : checkPath p = .ok ()
  noSlash : p.endsInSlash = false
  leads : ∃ front name l, p.segments = front ++ [name] ∧ fs.Leads [] front l ∧ IsEntry name ∧
    loc = l ++ [name]

namespace Names

theorem walk (names : fs.Names p loc) : fs.walk [] p.segments = .ok (fs.found loc) := by
  obtain ⟨front, name, l, segments, leads, entry, rfl⟩ := names.leads
  rw [segments, leads.walk_append, walk_name entry]

theorem locate (names : fs.Names p loc) : fs.locate p = .ok (fs.found loc) := by
  rw [FileSystem.locate, names.fine]
  dsimp only
  rw [names.walk, names.noSlash]
  cases fs.found loc <;> rfl

/-- A path leads to the same place as long as directories stay. -/
theorem mono (names : fs.Names p loc) (stay : ∀ l, fs.Reaches l → fs'.Reaches l) :
    fs'.Names p loc := by
  obtain ⟨front, name, l, segments, leads, entry, at'⟩ := names.leads
  exact ⟨names.fine, names.noSlash, front, name, l, segments, leads.mono .root stay, entry, at'⟩

theorem read (names : fs.Names p loc) {content : Content} (holds : fs.Holds loc content) :
    fs.read p = .ok content := by
  obtain ⟨id, there, rfl⟩ := holds
  rw [FileSystem.read, names.locate, found, there]

end Names

/-- **What writing does**: it replaces what a file holds, or adds a file where nothing is. -/
theorem write_cases (h : fs.write p octets = .ok fs') : ∃ loc, fs.Names p loc ∧
    ((∃ id, fs.node? loc = some (.file id) ∧ fs' = fs.setContent id (.plain octets)) ∨
      fs.node? loc = none ∧ fs' = (fs.addFile loc (.plain octets)).1) := by
  unfold write at h
  obtain ⟨⟨⟩, fine, h⟩ := Except.bind_eq_ok_iff.1 h
  obtain ⟨⟨⟩, writable, h⟩ := Except.bind_eq_ok_iff.1 h
  obtain ⟨what, located, h⟩ := Except.bind_eq_ok_iff.1 h
  have noSlash := checkWritable_eq_ok_iff.1 writable
  have walks := walk_of_locate located
  cases what with
  | directory loc => cases h
  | file loc id =>
    cases h
    obtain ⟨front, name, l, segments, leads, entry, at', there⟩ := leads_of_walk_file walks
    exact ⟨loc, ⟨fine, noSlash, front, name, l, segments, leads, entry, at'⟩,
      .inl ⟨id, there, rfl⟩⟩
  | vacant loc =>
    cases h
    obtain ⟨front, name, l, segments, leads, entry, at', vacant⟩ := leads_of_walk_vacant walks
    exact ⟨loc, ⟨fine, noSlash, front, name, l, segments, leads, entry, at'⟩, .inr ⟨vacant, rfl⟩⟩

end

/-- A tree without links and without loose parts. -/
structure Sound (fs : FileSystem) : Prop where
  tree : fs.IsTree
  rooted : fs.IsRooted

namespace Sound

variable {content : Content} {p : Path}

theorem empty : Sound {} := ⟨.empty, isRooted_empty⟩

theorem removeAt (sound : fs.Sound) (loc : Location) : (fs.removeAt loc).Sound :=
  ⟨sound.tree.removeAt loc, sound.rooted.removeAt loc⟩

theorem setContent (sound : fs.Sound) (id : FileId) (content : Content) :
    (fs.setContent id content).Sound where
  tree := sound.tree.setContent id content
  rooted n mem := by
    obtain ⟨l, name, at', reaches, entry⟩ := sound.rooted n mem
    exact ⟨l, name, at', reaches.mono fun _ there => there.there, entry⟩

/-- A file may be put where a path found nothing. -/
theorem addFile (sound : fs.Sound) (vacant : fs.walk [] segments = .ok (.vacant loc))
    (content : Content) : (fs.addFile loc content).1.Sound :=
  ⟨sound.tree.addFile (node?_of_vacant vacant) content, sound.rooted.concat vacant rfl⟩

theorem clear (sound : fs.Sound) (loc : Location) (companion : Companion) :
    (fs.clear loc companion).Sound := by
  cases companion with
  | nothing => exact sound.removeAt loc
  | directory | file => exact sound

theorem ensureIndex (sound : fs.Sound) (loc : Location) : (fs.ensureIndex loc).Sound := by
  unfold FileSystem.ensureIndex
  split
  · rename_i vacant
    exact sound.addFile vacant _
  · exact sound.setContent _ _
  · exact sound

theorem removeLog (sound : fs.Sound) (loc : Location) : (fs.removeLog loc).Sound :=
  (sound.removeAt _).removeAt _

theorem removeFile (sound : fs.Sound) (p : Path) : (fs.removeFile p).Sound := by
  unfold FileSystem.removeFile
  split
  · exact sound.removeAt _
  · exact sound

theorem makeDirectories (sound : fs.Sound) (p : Path) : (fs.makeDirectories p).1.Sound := by
  refine makeDirectories_induction (P := Sound) (fun fs fs' segments sound made => ?_) sound p
  refine ⟨(ensureDirectory_eq_ok made).1.isTree sound.tree, ?_⟩
  obtain ⟨-, rfl⟩ | ⟨loc, vacant, rfl⟩ := ensureDirectory_cases made
  · exact sound.rooted
  · exact sound.rooted.concat vacant rfl

theorem write (sound : fs.Sound) {octets : Bytes} (h : fs.write p octets = .ok fs') :
    fs'.Sound := by
  obtain ⟨loc, names, ⟨id, -, rfl⟩ | ⟨vacant, rfl⟩⟩ := write_cases h
  · exact sound.setContent id _
  · have walks := names.walk
    rw [found, vacant] at walks
    exact sound.addFile walks _

/-- Whatever a store puts into its file, the tree stays sound. -/
theorem save (sound : fs.Sound) (a : Attached) (store : Store) : (a.save fs store).2.Sound := by
  unfold Attached.save
  split
  · rename_i c location id _ _
    have cleared := (sound.clear location.journal c.journal).clear location.log c.log
    generalize (fs.clear location.journal c.journal).clear location.log c.log = cleared' at cleared
    have indexed : (if a.log.isSome then cleared' else cleared'.ensureIndex location).Sound := by
      split_ifs
      · exact cleared
      · exact cleared.ensureIndex location
    dsimp only
    generalize (if a.log.isSome then cleared' else cleared'.ensureIndex location) = indexed'
      at indexed ⊢
    split_ifs
    · cases a.log.or (cleared'.fileAt? location.log) with
      | none => exact indexed
      | some log => exact indexed.setContent log _
    · exact indexed
    · exact cleared.setContent id _
    · exact cleared
  · exact sound

theorem close (sound : fs.Sound) (a : Attached) (isShared : Bool) :
    (a.close fs isShared).Sound := by
  unfold Attached.close
  split
  · split
    · exact sound
    · split
      · exact (sound.setContent _ _).removeLog _
      · split
        · exact sound.removeLog _
        · exact sound
  · exact sound

end Sound

end FileSystem

end SealedLog

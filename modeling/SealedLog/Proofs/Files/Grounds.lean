import SealedLog.Proofs.Files.Looking
import SealedLog.Proofs.Session.Directory

/-!
# The grounds of a database

What a store does to the tree stays on the grounds of its database: the file itself, what stands
beside it under its name, and the manifests. The grounds of two backing files have nothing in common
but the manifests, so that neither store comes near the other's file, as long as no manifest has the
name of a file of a database.

* `Manifest.IsHarmless`: the names that manifests may have;
* `Location.IsBacking`, `Location.Beside`, `Location.Owns`: backing files and grounds;
* `FileSystem.Within`: the tree changed on some grounds only;
* `FileSystem.Respects`: backing files are left as they were, but for one's own;
* `Within.respects`, `Undisturbed.respects`: what stays on its grounds respects the others.
-/

namespace SealedLog

open Manifest

/-! ### Names -/

/-- Of two endings of one name the longer one ends in the shorter one. -/
theorem suffix_of_append_eq {name name' long short : String} (same : name ++ long = name' ++ short)
    (lengths : short.toList.length ≤ long.toList.length) : short.toList <:+ long.toList := by
  have lists := congrArg String.toList same
  rw [String.toList_append, String.toList_append] at lists
  have ends : short.toList <:+ name.toList ++ long.toList := lists ▸ List.suffix_append _ _
  exact List.suffix_of_suffix_length_le ends (List.suffix_append _ _) lengths

/-- How the names of the files of a database end: of its backing file, its journal and its log. -/
def Opening.databaseEndings : List String := [".db3", ".db3-journal", ".db3-wal"]

/-- The name ends like none of the files of a database. -/
def Manifest.IsHarmless (name : String) : Prop :=
  ∀ ending ∈ Opening.databaseEndings, ¬ ending.toList <:+ name.toList

theorem Manifest.isHarmless_defaultName : IsHarmless defaultName := by
  unfold IsHarmless
  decide

/-- The path of a manifest, joined from a harmless name, leads to a harmless name: no ending reaches
beyond the slash before what was joined. -/
theorem Manifest.IsHarmless.of_segments {p : Path} {relative name : String}
    (harmless : IsHarmless relative) {front : List String}
    (segments : (p.join relative).segments = front ++ [name])
    (noSlash : (p.join relative).endsInSlash = false) : IsHarmless name := by
  have singles : ∀ ending ∈ Opening.databaseEndings, '/' ∉ ending.toList := by decide
  intro ending mem ends
  obtain ⟨before, text, slash⟩ := p.exists_text_join relative
  have whole : ending.toList <:+ before.toList ++ relative.toList := by
    rw [← String.toList_append, ← text]
    exact ends.trans (Path.suffix_of_segments segments noSlash)
  rcases Nat.le_total ending.toList.length relative.toList.length with short | long
  · exact harmless ending mem
      (List.suffix_of_suffix_length_le whole (List.suffix_append _ _) short)
  · -- the ending would have the slash before the name of the manifest
    obtain ⟨first, split⟩ := List.suffix_of_suffix_length_le (List.suffix_append _ _) whole long
    have inside : first <:+ before.toList := by
      obtain ⟨rest, same⟩ := whole
      rw [← split, ← List.append_assoc] at same
      exact ⟨rest, List.append_cancel_right same⟩
    rcases List.eq_nil_or_concat first with rfl | ⟨first', c, rfl⟩
    · apply harmless ending mem
      rw [← split]
      exact List.suffix_refl _
    · rcases slash with rfl | last
      · exact absurd (List.suffix_nil.1 inside) (by simp)
      · obtain ⟨rest, same⟩ := inside
        have slash : c = '/' := by
          rw [← same, List.concat_eq_append, ← List.append_assoc, List.getLast?_concat] at last
          exact Option.some.inj last
        apply singles ending mem
        rw [← split, slash]
        simp

namespace Location

variable {b loc other : Location}

theorem concat_ne_of_endings {l l' : Location} {name name' long short : String}
    (lengths : short.toList.length ≤ long.toList.length) (apart : ¬ short.toList <:+ long.toList) :
    l ++ [name ++ long] ≠ l' ++ [name' ++ short] := by
  intro same
  have lasts := List.singleton_inj.1 (List.append_inj_right' same rfl)
  exact apart (suffix_of_append_eq lasts lengths)

/-- The location has the name of a backing file. -/
def IsBacking (b : Location) : Prop :=
  ∃ l stem, b = l ++ [stem ++ Opening.backingExtension]

/-- This stands beside a database under its name. -/
def Beside (loc other : Location) : Prop :=
  other = loc.journal ∨ other = loc.log ∨ other = loc.index

/-- The location has a name that manifests may have. -/
def IsManifest (loc : Location) : Prop := ∃ l name, loc = l ++ [name] ∧ IsHarmless name

/-- The grounds of a database: its file, what stands beside it, and the manifests. -/
def Owns (loc other : Location) : Prop := other = loc ∨ loc.Beside other ∨ other.IsManifest

/-- A file stands outside of these grounds, and so do its journal and its log. -/
structure Avoids (b : Location) (P : Location → Prop) : Prop where
  file : ¬ P b
  journal : ¬ P b.journal
  log : ¬ P b.log

/-- A name stands beside one location only. -/
theorem eq_of_beside {suffix : String} {l : Location} {name : String} (some : name ≠ "")
    (same : loc.beside suffix = l ++ [name ++ suffix]) : loc = l ++ [name] := by
  obtain ⟨outer, last⟩ := List.append_inj' same rfl
  have last : loc.getLast?.getD "" = name := by
    have lists := congrArg String.toList (List.singleton_inj.1 last)
    rw [String.toList_append, String.toList_append] at lists
    exact String.toList_injective (List.append_cancel_right lists)
  cases there : loc.getLast? with
  | none =>
    rw [there] at last
    exact absurd last.symm some
  | some other =>
    rw [there] at last
    obtain rfl : other = name := last
    obtain ⟨front, rfl⟩ := List.getLast?_eq_some_iff.1 there
    rw [List.dropLast_concat] at outer
    rw [outer]

namespace IsBacking

/-- Nothing that stands beside a database is a backing file. -/
theorem not_beside (isBacking : b.IsBacking) (loc : Location) : ¬ loc.Beside b := by
  obtain ⟨l, stem, rfl⟩ := isBacking
  rintro (same | same | same)
  · exact concat_ne_of_endings (by decide) (by decide) same.symm
  · exact concat_ne_of_endings (by decide) (by decide) same
  · exact concat_ne_of_endings (by decide) (by decide) same

/-- The journal and the log of a backing file stand beside no other database. -/
theorem eq_of_beside (isBacking : b.IsBacking)
    (beside : loc.Beside b.journal ∨ loc.Beside b.log) : loc = b := by
  obtain ⟨l, stem, rfl⟩ := isBacking
  have some : stem ++ Opening.backingExtension ≠ "" := append_ne (c := '3') rfl (by decide) stem
  rw [journal, log, beside_concat, beside_concat] at beside
  rcases beside with (same | same | same) | (same | same | same)
  · exact Location.eq_of_beside some same.symm
  · exact absurd same (concat_ne_of_endings (by decide) (by decide))
  · exact absurd same (concat_ne_of_endings (by decide) (by decide))
  · exact absurd same.symm (concat_ne_of_endings (by decide) (by decide))
  · exact Location.eq_of_beside some same.symm
  · exact absurd same (concat_ne_of_endings (by decide) (by decide))

theorem avoids_beside (isBacking : b.IsBacking) (ne : loc ≠ b) : b.Avoids loc.Beside where
  file := isBacking.not_beside loc
  journal beside := ne (isBacking.eq_of_beside (.inl beside))
  log beside := ne (isBacking.eq_of_beside (.inr beside))

/-- Neither a backing file nor its journal or its log is a manifest. -/
theorem avoids_manifests (isBacking : b.IsBacking) : b.Avoids IsManifest := by
  have avoids : ∀ l stem, ∀ ending ∈ Opening.databaseEndings,
      ¬ IsManifest (l ++ [stem ++ ending]) := by
    rintro l stem ending mem ⟨l', name, same, harmless⟩
    apply harmless ending mem
    rw [← List.singleton_inj.1 (List.append_inj_right' same rfl), String.toList_append]
    exact List.suffix_append _ _
  obtain ⟨l, stem, rfl⟩ := isBacking
  constructor
  · exact avoids l stem ".db3" (by decide)
  · rw [journal, beside_concat, String.append_assoc]
    exact avoids l stem ".db3-journal" (by decide)
  · rw [log, beside_concat, String.append_assoc]
    exact avoids l stem ".db3-wal" (by decide)

/-- **A backing file stands outside of the grounds of another one.** -/
theorem avoids_owns (isBacking : b.IsBacking) (isBacking' : loc.IsBacking) (ne : loc ≠ b) :
    b.Avoids loc.Owns := by
  have outside := isBacking.avoids_beside ne
  have manifests := isBacking.avoids_manifests
  constructor
  · rintro (same | there | there)
    · exact ne same.symm
    · exact outside.file there
    · exact manifests.file there
  · rintro (same | there | there)
    · exact isBacking'.not_beside b (.inl same.symm)
    · exact outside.journal there
    · exact manifests.journal there
  · rintro (same | there | there)
    · exact isBacking'.not_beside b (.inr (.inl same.symm))
    · exact outside.log there
    · exact manifests.log there

end IsBacking

end Location

/-! ### Changes that stay on some grounds -/

namespace FileSystem

variable {fs fs' fs'' : FileSystem} {P Q : Location → Prop} {b loc location : Location}
  {id : FileId} {content : Content} {p : Path}

/-- Nothing became of the tree but on these grounds, except for new directories. -/
structure Within (fs : FileSystem) (P : Location → Prop) (fs' : FileSystem) : Prop where
  directories : ∀ l, fs.Reaches l → fs'.Reaches l
  files : ∀ loc id, ¬ P loc → (fs'.node? loc = some (.file id) ↔ fs.node? loc = some (.file id))
  contents : ∀ loc id, ¬ P loc → fs.node? loc = some (.file id) → fs'.content id = fs.content id

namespace Within

theorem refl (fs : FileSystem) (P : Location → Prop) : fs.Within P fs :=
  ⟨fun _ reaches => reaches, fun _ _ _ => Iff.rfl, fun _ _ _ _ => rfl⟩

theorem trans (first : fs.Within P fs') (second : fs'.Within P fs'') : fs.Within P fs'' where
  directories l reaches := second.directories l (first.directories l reaches)
  files loc id outside := (second.files loc id outside).trans (first.files loc id outside)
  contents loc id outside there :=
    (second.contents loc id outside ((first.files loc id outside).2 there)).trans
      (first.contents loc id outside there)

theorem mono (within : fs.Within P fs') (wider : ∀ loc, P loc → Q loc) : fs.Within Q fs' where
  directories := within.directories
  files loc id outside := within.files loc id fun mine => outside (wider loc mine)
  contents loc id outside := within.contents loc id fun mine => outside (wider loc mine)

/-- Something is taken out of the tree that is no directory. -/
theorem removeAt (rooted : fs.IsRooted) (some : loc ≠ [])
    (noDirectory : fs.companion loc ≠ .directory) (mine : P loc) :
    fs.Within P (fs.removeAt loc) where
  directories l reaches := rooted.reaches_removeAt some noDirectory reaches
  files other id outside := by
    have ne : other ≠ loc := by
      rintro rfl
      exact outside mine
    rw [rooted.node?_removeAt_of_ne noDirectory ne]
  contents _ _ _ _ := rfl

/-- A file is put where nothing stood. -/
theorem addFile (tree : fs.IsTree) (vacant : fs.node? loc = none) (mine : P loc)
    (content : Content) : fs.Within P (fs.addFile loc content).1 where
  directories l reaches := reaches.of_append rfl
  files other id outside := by
    have ne : other ≠ loc := by
      rintro rfl
      exact outside mine
    rw [node?_addFile_of_ne ne]
  contents other id _ there := content_addFile_of_lt (tree.backed there) loc content

/-- A file is written. -/
theorem setContent (mine : ∀ loc, fs.node? loc = some (.file id) → P loc) (content : Content) :
    fs.Within P (fs.setContent id content) where
  directories _ reaches := reaches.mono fun _ reaches => reaches.there
  files _ _ _ := Iff.rfl
  contents other id' outside there := by
    apply content_setContent_of_ne
    rintro rfl
    exact outside (mine other there)

theorem makeDirectories (fs : FileSystem) (P : Location → Prop) (p : Path) :
    fs.Within P (fs.makeDirectories p).1 := by
  apply makeDirectories_induction (P := fs.Within P) _ (refl fs P)
  intro fs₁ fs₂ segments within made
  obtain ⟨-, rfl⟩ | ⟨loc, vacant, rfl⟩ := ensureDirectory_cases made
  · exact within
  · -- where the directory is made no file stood
    have new : FileSystem.node? { fs₁ with nodes := fs₁.nodes ++ [(loc, .directory)] } loc =
        some .directory := node?_of_concat rfl (node?_of_vacant vacant)
    refine within.trans ⟨fun l reaches => reaches.of_append rfl, fun other id _ => ?_,
      fun _ _ _ _ => rfl⟩
    constructor
    · intro there
      by_cases same : other = loc
      · rw [same, new] at there
        cases there
      · rwa [node?_of_concat_of_ne rfl same] at there
    · exact node?_of_append rfl

/-- The file that a path leads to is removed. -/
theorem removeFile (sound : fs.Sound)
    (mine : ∀ loc id, fs.locate p = .ok (.file loc id) → P loc) :
    fs.Within P (fs.removeFile p) := by
  unfold FileSystem.removeFile
  split
  · rename_i loc id located
    obtain ⟨front, name, l, -, leads, entry, rfl, there⟩ :=
      leads_of_walk_file (walk_of_locate located)
    apply removeAt sound.rooted (by simp) _ (mine _ id located)
    rw [companion_of_reaches (leads.reaches .root) entry, there]
    exact nofun
  · exact refl fs P

/-- A manifest is written. -/
theorem write_manifest (tree : fs.IsTree) {octets : Bytes} {relative : String}
    (harmless : IsHarmless relative) (written : fs.write (p.join relative) octets = .ok fs')
    (mine : ∀ loc, loc.IsManifest → P loc) : fs.Within P fs' := by
  obtain ⟨loc, names, did⟩ := write_cases written
  have isManifest : loc.IsManifest := by
    obtain ⟨front, name, l, segments, -, -, rfl⟩ := names.leads
    exact ⟨l, name, rfl, harmless.of_segments segments names.noSlash⟩
  rcases did with ⟨id, there, rfl⟩ | ⟨vacant, rfl⟩
  · apply setContent
    intro loc' there'
    rw [tree.single there' there]
    exact mine _ isManifest
  · exact addFile tree vacant (mine _ isManifest) _

end Within

/-- To look at a database changes nothing but what stands beside it. -/
theorem Besides.within (tree : fs.IsTree) (besides : fs.Besides location fs') :
    fs.Within location.Beside fs' where
  directories := besides.directories
  files loc id outside := by
    unfold Location.Beside at outside
    rw [not_or, not_or] at outside
    rw [besides.nodes loc outside.1 outside.2.1 outside.2.2]
  contents loc id outside there := by
    apply besides.contents id (tree.backed there)
    intro index
    rw [tree.single there index] at outside
    exact outside (.inr (.inr rfl))

/-! ### Backing files that stay -/

/-- No change of a database is unfinished: there is no journal, and no log that has anything. In
their places directories may stand. -/
structure Idle (fs : FileSystem) (b : Location) : Prop where
  journal : ∀ id, fs.node? b.journal ≠ some (.file id)
  log : ∀ id, fs.node? b.log = some (.file id) → (fs.content id).hasOctets = false

/-- A file is as it was, and no unfinished change has come beside it. -/
structure Leaves (fs : FileSystem) (b : Location) (id : FileId) (fs' : FileSystem) : Prop where
  file : fs'.node? b = some (.file id)
  content : fs'.content id = fs.content id
  idle : fs.Idle b → fs'.Idle b

/-- Directories stay, and so do the backing files, but for one's own. -/
structure Respects (fs : FileSystem) (own : Option Location) (fs' : FileSystem) : Prop where
  directories : ∀ l, fs.Reaches l → fs'.Reaches l
  backing : ∀ b id, b.IsBacking → fs.node? b = some (.file id) → own ≠ some b → fs.Leaves b id fs'

theorem Leaves.refl (there : fs.node? b = some (.file id)) : fs.Leaves b id fs :=
  ⟨there, rfl, fun idle => idle⟩

theorem Respects.refl (fs : FileSystem) (own : Option Location) : fs.Respects own fs :=
  ⟨fun _ reaches => reaches, fun _ _ _ there _ => .refl there⟩

theorem Respects.of_none (respects : fs.Respects none fs') (own : Option Location) :
    fs.Respects own fs' :=
  ⟨respects.directories, fun b id isBacking there _ => respects.backing b id isBacking there nofun⟩

/-- What stays on grounds that a file avoids leaves the file. -/
theorem Within.leaves (within : fs.Within P fs') (avoids : b.Avoids P)
    (there : fs.node? b = some (.file id)) : fs.Leaves b id fs' where
  file := (within.files b id avoids.file).2 there
  content := within.contents b id avoids.file there
  idle idle := by
    constructor
    · intro other new
      exact idle.journal other ((within.files b.journal other avoids.journal).1 new)
    · intro other new
      have old := (within.files b.log other avoids.log).1 new
      rw [within.contents b.log other avoids.log old]
      exact idle.log other old

/-- **What stays on the grounds of a backing file respects the others.** -/
theorem Within.respects (within : fs.Within loc.Owns fs') (isBacking : loc.IsBacking) :
    fs.Respects (some loc) fs' := by
  refine ⟨within.directories, fun b id isBacking' there ne => ?_⟩
  apply within.leaves _ there
  apply isBacking'.avoids_owns isBacking
  rintro rfl
  exact ne rfl

/-- In a sound tree nothing filled stands beside a file that is idle. -/
theorem Idle.isFilled_log (idle : fs.Idle b) (plain : b.IsPlain) :
    (fs.companion b.log).isFilled = false := by
  by_contra filled
  obtain ⟨id, found, octets⟩ := walk_of_isFilled plain.log (by simpa using filled)
  obtain ⟨-, -, -, -, -, -, -, there⟩ := leads_of_walk_file found
  rw [idle.log id there] at octets
  cases octets

theorem Sound.isPlain (sound : fs.Sound) (there : fs.node? b = some (.file id)) : b.IsPlain := by
  have some : b ≠ [] := by
    rintro rfl
    cases there
  obtain ⟨l, name, rfl, reaches, entry⟩ := sound.rooted.exists_entry some there
  exact reaches.isPlain_concat entry

/-- **What looks at a database to read it respects all backing files**, the one that it reads among
them. -/
theorem Undisturbed.respects (undisturbed : fs.Undisturbed location .readOnly fs')
    (sound : fs.Sound) : fs.Respects none fs' := by
  have within := undisturbed.besides.within sound.tree
  refine ⟨within.directories, fun b id isBacking there _ => ?_⟩
  by_cases same : location = b
  · subst same
    have outside := isBacking.not_beside location
    refine ⟨(within.files _ id outside).2 there, within.contents _ id outside there, fun idle => ?_⟩
    rw [undisturbed.same (fun writes => nomatch writes) (idle.isFilled_log (sound.isPlain there))]
    exact idle
  · exact within.leaves (isBacking.avoids_beside same) there

theorem UndisturbedAt.respects {database : Option Location}
    (undisturbed : fs.UndisturbedAt (database.map (·, .readOnly)) fs') (sound : fs.Sound) :
    fs.Respects none fs' := by
  cases database with
  | none =>
    obtain rfl : fs' = fs := undisturbed
    exact .refl fs' none
  | some location => exact Undisturbed.respects undisturbed sound

end FileSystem

end SealedLog

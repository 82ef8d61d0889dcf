import SealedLog.Proofs.Files.Leftovers

/-!
# Trees of one shape

Whether a file can be written is a matter of what stands where: of directories and files, not of
what files hold or which ones they are. A database that was made in two trees that differed in what
was left over beside it has made them of one shape.

* `FileSystem.SameShape`, `write_again`: what can be written in one tree can be written in the
  other;
* `FileSystem.Tidies`: a tree lacks something of what is left over in another one;
* `sameShape_of_sheds`: what is left over has gone in both once a database was made.
-/

namespace SealedLog

/-- What a path leads to, whichever file it is. -/
def Found.outline : Found → Found
  | .file location _ => .file location 0
  | found => found

namespace FileSystem

variable {fs fs' fs₁ fs₁' : FileSystem} {l b loc : Location} {segments : List String} {p : Path}

/-- Directories and files stand where they stand in another tree. -/
structure SameShape (fs fs' : FileSystem) : Prop where
  directory : ∀ loc, fs'.node? loc = some .directory ↔ fs.node? loc = some .directory
  vacant : ∀ loc, fs'.node? loc = none ↔ fs.node? loc = none

namespace SameShape

theorem file (same : fs.SameShape fs') {id : FileId} (there : fs.node? loc = some (.file id)) :
    ∃ id', fs'.node? loc = some (.file id') := by
  cases there' : fs'.node? loc with
  | none =>
    rw [(same.vacant loc).1 there'] at there
    cases there
  | some node =>
    cases node with
    | directory =>
      rw [(same.directory loc).1 there'] at there
      cases there
    | file id' => exact ⟨id', rfl⟩

/-- Where directories and files stand nothing else is to be said. -/
theorem of_files
    (directories : ∀ loc, fs'.node? loc = some .directory ↔ fs.node? loc = some .directory)
    (files : ∀ loc,
      (∃ id, fs'.node? loc = some (.file id)) ↔ ∃ id, fs.node? loc = some (.file id)) :
    fs.SameShape fs' := by
  have taken : ∀ fs : FileSystem, ∀ loc, fs.node? loc = none ↔
      ¬ (fs.node? loc = some .directory ∨ ∃ id, fs.node? loc = some (.file id)) := by
    intro fs loc
    cases fs.node? loc with
    | none => simp
    | some node => cases node <;> simp
  refine ⟨directories, fun loc => ?_⟩
  rw [taken fs', taken fs, directories loc, files loc]

/-- Paths lead to the same. -/
theorem walk (same : fs.SameShape fs') (l : Location) (segments : List String) :
    (fs'.walk l segments).map Found.outline = (fs.walk l segments).map Found.outline := by
  induction segments generalizing l with
  | nil => rfl
  | cons name rest ih =>
    rw [walk_cons, walk_cons]
    split_ifs
    · exact ih l
    · exact ih l.dropLast
    · rfl
    · cases there : fs.node? (l ++ [name]) with
      | none =>
        rw [(same.vacant _).2 there]
        cases rest <;> rfl
      | some node =>
        cases node with
        | directory =>
          rw [(same.directory _).2 there]
          exact ih (l ++ [name])
        | file id =>
          obtain ⟨id', there'⟩ := same.file there
          rw [there']
          cases rest <;> rfl

end SameShape

/-- What can be written: a file, be it there or not, under a path that does not end in a slash. -/
theorem write_isOk_iff {octets : Bytes} : (∃ fs₁, fs.write p octets = .ok fs₁) ↔
    checkPath p = .ok () ∧ p.endsInSlash = false ∧
      ((∃ loc, (fs.walk [] p.segments).map Found.outline = .ok (.file loc 0)) ∨
        ∃ loc, (fs.walk [] p.segments).map Found.outline = .ok (.vacant loc)) := by
  constructor
  · rintro ⟨fs₁, h⟩
    obtain ⟨loc, names, ⟨id, there, -⟩ | ⟨vacant, -⟩⟩ := write_cases h
    · refine ⟨names.fine, names.noSlash, .inl ⟨loc, ?_⟩⟩
      rw [names.walk, found, there]
      rfl
    · refine ⟨names.fine, names.noSlash, .inr ⟨loc, ?_⟩⟩
      rw [names.walk, found, vacant]
      rfl
  · rintro ⟨fine, noSlash, there⟩
    have located : ∀ what, fs.walk [] p.segments = .ok what → fs.locate p = .ok what := by
      intro what walks
      rw [locate, fine]
      dsimp only
      rw [walks, noSlash]
      cases what <;> rfl
    have writes : ∀ what, fs.walk [] p.segments = .ok what → (∀ loc, what ≠ .directory loc) →
        ∃ fs₁, fs.write p octets = .ok fs₁ := by
      intro what walks noDirectory
      cases what with
      | directory loc => exact absurd rfl (noDirectory loc)
      | file loc id =>
        exact ⟨_, Except.bind_eq_ok_iff.2 ⟨(), fine, Except.bind_eq_ok_iff.2 ⟨(),
          checkWritable_eq_ok_iff.2 noSlash, Except.bind_eq_ok_iff.2 ⟨_, located _ walks, rfl⟩⟩⟩⟩
      | vacant loc =>
        exact ⟨_, Except.bind_eq_ok_iff.2 ⟨(), fine, Except.bind_eq_ok_iff.2 ⟨(),
          checkWritable_eq_ok_iff.2 noSlash, Except.bind_eq_ok_iff.2 ⟨_, located _ walks, rfl⟩⟩⟩⟩
    rcases there with ⟨loc, there⟩ | ⟨loc, there⟩
    all_goals
      obtain ⟨what, walks, same⟩ := Except.map_eq_ok_iff.1 there
      refine writes what walks ?_
      rintro loc' rfl
      cases same

/-- **What can be written in a tree can be written in one of the same shape.** -/
theorem SameShape.write_again (same : fs.SameShape fs') {octets : Bytes}
    (written : fs.write p octets = .ok fs₁) (octets' : Bytes) :
    ∃ fs₁', fs'.write p octets' = .ok fs₁' := by
  have can := write_isOk_iff.1 ⟨fs₁, written⟩
  rw [← same.walk] at can
  exact write_isOk_iff.2 can

/-! ### Trees that differ in what is left over -/

/-- A tree is another one but for some of what is left over there beside a place. -/
structure Tidies (fs : FileSystem) (b : Location) (fs' : FileSystem) : Prop where
  directories : ∀ loc, fs'.node? loc = some .directory ↔ fs.node? loc = some .directory
  files : ∀ loc content, fs'.Holds loc content → fs.Holds loc content
  kept : ∀ loc content, fs.Holds loc content → fs'.Holds loc content ∨ LeftOver b loc content

namespace Tidies

theorem reaches (tidies : fs.Tidies b fs') (l : Location) (reaches : fs.Reaches l) :
    fs'.Reaches l :=
  reaches.mono fun loc reaches => (tidies.directories loc).2 reaches.there

/-- Nothing stands where nothing stood. -/
theorem vacant (tidies : fs.Tidies b fs') (vacant : fs.node? loc = none) :
    fs'.node? loc = none := by
  cases there : fs'.node? loc with
  | none => rfl
  | some node =>
    cases node with
    | directory =>
      rw [(tidies.directories loc).1 there] at vacant
      cases vacant
    | file id =>
      obtain ⟨id', standing, -⟩ := tidies.files loc _ ⟨id, there, rfl⟩
      rw [standing] at vacant
      cases vacant

end Tidies

theorem Holds.ne_of_vacant {content : Content} (holds : fs.Holds loc content)
    (vacant : fs.node? b = none) : loc ≠ b := by
  obtain ⟨id, there, -⟩ := holds
  rintro rfl
  rw [vacant] at there
  cases there

section

variable {content new : Content}

theorem IsTree.holds_addFile_iff (tree : fs.IsTree) (ne : loc ≠ b) :
    (fs.addFile b new).1.Holds loc content ↔ fs.Holds loc content := by
  have same : (fs.addFile b new).1.node? loc = fs.node? loc := node?_addFile_of_ne ne new
  constructor
  · rintro ⟨id, there, rfl⟩
    rw [same] at there
    exact ⟨id, there, (content_addFile_of_lt (tree.backed there) _ _).symm⟩
  · rintro ⟨id, there, rfl⟩
    exact ⟨id, same.trans there, content_addFile_of_lt (tree.backed there) _ _⟩

theorem holds_addFile_self_iff (vacant : fs.node? b = none) :
    (fs.addFile b new).1.Holds b content ↔ content = new := by
  have there := node?_addFile vacant new
  constructor
  · rintro ⟨id, there', rfl⟩
    rw [there] at there'
    cases there'
    exact content_addFile fs b new
  · rintro rfl
    exact ⟨_, there, content_addFile fs b content⟩

/-- A new file in both trees leaves them different in what is left over. -/
theorem Tidies.addFile (tidies : fs.Tidies b fs') (tree : fs.IsTree) (tree' : fs'.IsTree)
    (vacant : fs.node? b = none) (new : Content) :
    (fs.addFile b new).1.Tidies b (fs'.addFile b new).1 := by
  have vacant' := tidies.vacant vacant
  refine ⟨fun loc => ?_, fun loc content holds => ?_, fun loc content holds => ?_⟩
  · by_cases same : loc = b
    · rw [same, node?_addFile vacant, node?_addFile vacant']
      exact iff_of_false nofun nofun
    · rw [node?_addFile_of_ne same, node?_addFile_of_ne same]
      exact tidies.directories loc
  · by_cases same : loc = b
    · subst same
      exact (holds_addFile_self_iff vacant).2 ((holds_addFile_self_iff vacant').1 holds)
    · exact (tree.holds_addFile_iff same).2
        (tidies.files loc content ((tree'.holds_addFile_iff same).1 holds))
  · by_cases same : loc = b
    · subst same
      exact .inl ((holds_addFile_self_iff vacant').2 ((holds_addFile_self_iff vacant).1 holds))
    · exact (tidies.kept loc content ((tree.holds_addFile_iff same).1 holds)).imp_left
        (tree'.holds_addFile_iff same).2

theorem IsRooted.holds_removeAt_iff (rooted : fs.IsRooted)
    (noDirectory : fs.companion b ≠ .directory)
    (ne : loc ≠ b) : (fs.removeAt b).Holds loc content ↔ fs.Holds loc content := by
  unfold Holds
  rw [rooted.node?_removeAt_of_ne noDirectory ne]
  rfl

/-- **Once the new database is removed only what was left over beside it is missing.** -/
theorem Sheds.tidies_removeAt (sheds : (fs.addFile b new).1.Sheds b fs') (sound : fs.Sound)
    (vacant : fs.node? b = none) (sound' : fs'.Sound) : fs.Tidies b (fs'.removeAt b) := by
  have inside : b ≠ [] := by
    rintro rfl
    cases vacant
  have gone := fs'.node?_removeAt_self inside
  have noDirectory : fs'.companion b ≠ .directory := by
    rw [sound'.rooted.companion_of_file (sheds.file (node?_addFile vacant new))]
    intro directory
    cases directory
  refine ⟨fun loc => ?_, fun loc content holds => ?_, fun loc content holds => ?_⟩
  · by_cases same : loc = b
    · rw [same, gone, vacant]
    · rw [sound'.rooted.node?_removeAt_of_ne noDirectory same, sheds.directories,
        node?_addFile_of_ne same]
  · have ne := holds.ne_of_vacant gone
    exact (sound.tree.holds_addFile_iff ne).1
      (sheds.holds ne ((sound'.rooted.holds_removeAt_iff noDirectory ne).1 holds))
  · have ne := holds.ne_of_vacant vacant
    exact (sheds.holds_or ne ((sound.tree.holds_addFile_iff ne).2 holds)).imp_left
      (sound'.rooted.holds_removeAt_iff noDirectory ne).2

end

variable {name : String} {id id' : FileId} {content content' : Content}

/-- In a storage nothing is left over beside its file. -/
theorem Sheds.not_leftOver (sheds : fs.Sheds (l ++ [name]) fs₁)
    (storage : fs₁.Storage l name id content) {other : FileId}
    (there : fs₁.node? loc = some (.file other)) :
    ¬ LeftOver (l ++ [name]) loc (fs.content other) := by
  rintro (rfl | ⟨rfl, octets⟩)
  · rw [Location.journal, Location.beside_concat, storage.journal] at there
    cases there
  · rw [← sheds.contents _ other (Location.beside_ne_self _ (by decide)) there] at octets
    rw [Location.log, Location.beside_concat] at there
    have unseen := storage.log
    rw [companion_of_reaches storage.reaches storage.fits.log, there] at unseen
    exact Bool.false_ne_true (unseen.symm.trans octets)

/-- **Once a database was made in both trees they are of one shape**: what was left over is gone. -/
theorem Tidies.sameShape (tidies : fs.Tidies (l ++ [name]) fs')
    (sheds : fs.Sheds (l ++ [name]) fs₁) (storage : fs₁.Storage l name id content)
    (sheds' : fs'.Sheds (l ++ [name]) fs₁') (storage' : fs₁'.Storage l name id' content') :
    fs₁.SameShape fs₁' := by
  refine .of_files (fun loc => ?_) fun loc => ⟨?_, ?_⟩
  · rw [sheds'.directories, tidies.directories, sheds.directories]
  · rintro ⟨other, there⟩
    obtain ⟨old, standing, same⟩ := tidies.files loc _ ⟨other, sheds'.files loc other there, rfl⟩
    refine ⟨old, (sheds.kept loc old standing).resolve_right fun leftOver => ?_⟩
    rw [same] at leftOver
    exact sheds'.not_leftOver storage' there leftOver
  · rintro ⟨other, there⟩
    have remains := sheds.not_leftOver storage there
    obtain ⟨old, standing, same⟩ := (tidies.kept loc _
      ⟨other, sheds.files loc other there, rfl⟩).resolve_right remains
    refine ⟨old, (sheds'.kept loc old standing).resolve_right fun leftOver => remains ?_⟩
    rwa [same] at leftOver

end FileSystem

end SealedLog

import SealedLog.Proofs.Files.Shape
import SealedLog.Proofs.Files.Ways
import SealedLog.Proofs.Session.Founding

/-!
# Failed openings are undone

When a directory cannot be opened for writing, the backing file that was made for it goes again, and
all files are as they were. Directories on the way of the path may have come, and what a new
database takes away beside it is gone.

* `Opening.Undone`: what a failed opening leaves;
* `Undone.of_sheds`: a backing file that was made is removed again;
* `Works.save_visited`: a store in good order that is only asked leaves the tree;
* `Session.openWriting_undone`: whatever fails, it leaves that.
-/

namespace SealedLog

open FileSystem

/-- What a new backing file for this opening takes away: a journal or a log that stands beside the
place for it. -/
def Opening.LeftOver (o : Opening) (fs : FileSystem) (loc : Location) (content : Content) : Prop :=
  ∃ name, o.backingName? = some name ∧ fs.node? (o.uri.location ++ [name]) = none ∧
    FileSystem.LeftOver (o.uri.location ++ [name]) loc content

/-- What a failed opening leaves: every file that was there, with what it held, unless it was left
over beside the place for the backing file; no other file; and every directory that was there, with
others on the way of the path at most. -/
structure Opening.Undone (o : Opening) (fs fs' : FileSystem) : Prop where
  sound : fs'.Sound
  files : ∀ loc content, fs'.Holds loc content → fs.Holds loc content
  kept : ∀ loc content, fs.Holds loc content → fs'.Holds loc content ∨ o.LeftOver fs loc content
  directories : fs.DirectoriesWithin fs'
  made : ∀ loc, fs'.node? loc = some .directory → fs.node? loc = some .directory ∨ o.uri.OnWay loc

namespace FileSystem

variable {fs fs' : FileSystem} {loc : Location} {id : FileId}

theorem makeDirectories_adds (fs : FileSystem) (p : Path) :
    fs.AddsDirectories (fs.makeDirectories p).1 :=
  makeDirectories_induction (fun _ _ _ adds made => adds.trans (ensureDirectory_eq_ok made).1)
    (.refl fs) p

namespace AddsDirectories

theorem keeps (adds : fs.AddsDirectories fs') {node : Node} (there : fs.node? loc = some node) :
    fs'.node? loc = some node := by
  obtain ⟨more, nodes, -⟩ := adds
  exact node?_of_append nodes there

theorem content (adds : fs.AddsDirectories fs') (id : FileId) : fs'.content id = fs.content id := by
  obtain ⟨-, -, -, contents⟩ := adds
  rw [FileSystem.content, FileSystem.content, contents]

theorem holds_iff (adds : fs.AddsDirectories fs') {content : Content} :
    fs'.Holds loc content ↔ fs.Holds loc content := by
  constructor
  · rintro ⟨id, there, rfl⟩
    exact ⟨id, adds.file there, (adds.content id).symm⟩
  · rintro ⟨id, there, rfl⟩
    exact ⟨id, adds.keeps there, adds.content id⟩

end AddsDirectories

end FileSystem

namespace Opening.Undone

variable {o : Opening} {fs fs₁ fs' : FileSystem} {l : Location} {name : String}

theorem refl (sound : fs.Sound) : o.Undone fs fs :=
  ⟨sound, fun _ _ holds => holds, fun _ _ holds => .inl holds, fun _ there => there,
    fun _ there => .inl there⟩

/-- **What a failed opening has left does not matter to what is taken out afterwards.** -/
theorem removeAt (undone : o.Undone fs fs') (loc : Location) :
    o.Undone (fs.removeAt loc) (fs'.removeAt loc) := by
  have keeps : ∀ {fs₁ fs₂ : FileSystem} {l : Location} {node node' : Node},
      (fs₁.removeAt loc).node? l = some node → fs₂.node? l = some node' →
        (fs₂.removeAt loc).node? l = some node' := by
    intro fs₁ fs₂ l node node' standing there
    by_cases root : l = []
    · subst root
      exact there
    · rw [node?_removeAt, there]
      intro below
      rw [fs₁.node?_removeAt_of_prefix below root] at standing
      cases standing
  refine ⟨undone.sound.removeAt loc, fun l content holds => ?_, fun l content holds => ?_,
    fun l directory => ?_, fun l directory => ?_⟩
  · obtain ⟨id, standing, rfl⟩ := holds
    obtain ⟨id', there, same⟩ := undone.files l _ ⟨id, node?_of_removeAt standing, rfl⟩
    exact ⟨id', keeps standing there, same⟩
  · obtain ⟨id, standing, rfl⟩ := holds
    obtain ⟨id', there, same⟩ | ⟨name, backing, vacant, leftOver⟩ :=
      undone.kept l _ ⟨id, node?_of_removeAt standing, rfl⟩
    · exact .inl ⟨id', keeps standing there, same⟩
    · exact .inr ⟨name, backing, node?_removeAt_eq_none vacant, leftOver⟩
  · exact keeps directory (undone.directories l (node?_of_removeAt directory))
  · exact (undone.made l (node?_of_removeAt directory)).imp_left (keeps directory)

/-- What has only made directories is undone. -/
theorem of_directories (sound : fs.Sound) : o.Undone fs (fs.makeDirectories o.uri).1 where
  sound := sound.makeDirectories o.uri
  files _ _ holds := (makeDirectories_adds fs o.uri).holds_iff.1 holds
  kept _ _ holds := .inl ((makeDirectories_adds fs o.uri).holds_iff.2 holds)
  directories _ there := (makeDirectories_adds fs o.uri).keeps there
  made _ there := makeDirectories_onWay rfl there

/-- What lacks some of what was left over beside the place for the backing file is undone. -/
theorem of_tidies (adds : fs.AddsDirectories fs₁) (before : o.Undone fs fs₁)
    (backing : o.backingName? = some name) (vacant : fs.node? (o.uri.location ++ [name]) = none)
    (tidies : fs₁.Tidies (o.uri.location ++ [name]) fs') (sound : fs'.Sound) : o.Undone fs fs' where
  sound := sound
  files loc content holds := before.files loc content (tidies.files loc content holds)
  kept loc content holds := (tidies.kept loc content (adds.holds_iff.2 holds)).imp_right
    fun leftOver => ⟨name, backing, vacant, leftOver⟩
  directories loc there := (tidies.directories loc).2 (before.directories loc there)
  made loc there := before.made loc ((tidies.directories loc).1 there)

/-- **What has made a backing file and taken away what was left over beside it is undone once the
file is removed.** -/
theorem of_sheds (sound : fs.Sound) (made : fs.makeDirectories o.uri = (fs₁, .ok ()))
    (backing : o.backingName? = some name) (plot : fs₁.Plot o.uri l name)
    (sheds : (fs₁.addFile (l ++ [name]) (.plain [])).1.Sheds (l ++ [name]) fs')
    (sound' : fs'.Sound) :
    o.Undone fs (fs'.removeFile (o.uri.join name)) := by
  have adds := makeDirectories_adds fs o.uri
  have before := of_directories (o := o) sound
  rw [made] at adds before
  have there := sheds.file (node?_addFile plot.vacant _)
  have leads : fs'.Leads [] o.uri.segments l := plot.leads.mono .root fun l reaches =>
    (reaches.of_append rfl : (fs₁.addFile _ _).1.Reaches l).mono fun loc reaches =>
      (sheds.directories loc).2 reaches.there
  -- the file is there, so that it is removed
  have removed : fs'.removeFile (o.uri.join name) = fs'.removeAt (l ++ [name]) := by
    rw [removeFile, locate_join plot.segment plot.entry leads plot.fits, found, there]
  have vacant : fs.node? (l ++ [name]) = none := by
    by_contra standing
    obtain ⟨node, standing⟩ := Option.ne_none_iff_exists'.1 standing
    have still := adds.keeps standing
    rw [plot.vacant] at still
    cases still
  have tidies := sheds.tidies_removeAt before.sound plot.vacant sound'
  rw [removed]
  obtain rfl : o.uri.location = l := plot.leads.location
  exact of_tidies adds before backing vacant tidies (sound'.removeAt _)

end Opening.Undone

theorem Companion.isFilled_of_isSeen {companion : Companion} (unseen : companion.isSeen = false) :
    companion.isFilled = false := by
  cases companion with
  | nothing => rfl
  | directory => rfl
  | file content => exact unseen

/-- A store in good order that is only asked leaves the tree as it is. -/
theorem Desk.Works.save_visited {d : Desk} {l : Location} {name : String} {id : FileId}
    {content : Content} (works : d.Works l name id .readWrite content) (sound : d.files.Sound) :
    (d.attached.save d.files (d.attached.load d.files).visitMetadata).2 = d.files := by
  have storage := works.storage
  have plain := storage.reaches.isPlain_concat storage.entry
  obtain ⟨c, engine, mode⟩ := works.opened
  have inOrder : d.attached.InOrder := by
    constructor
    · intro location id' file
      rw [works.sees.file] at file
      cases file
      exact plain
    · intro c' location id' engine' _ logged
      obtain ⟨c₀, engine₀, direct⟩ := works.sees.direct
      rw [engine'] at engine₀
      cases engine₀
      rw [direct] at logged
      cases logged
  have undisturbed := Attached.undisturbed_of_looks inOrder sound
    (Session.visitMetadata_lasting (Store.Looks.viewed _) (.refl (d.attached.load d.files)))
  have database : d.attached.database? = some (l ++ [name], .readWrite) := by
    rw [Attached.database?, engine, works.sees.file, ← mode]
  rw [database] at undisturbed
  -- nothing is beside the file that could be cleared away
  refine undisturbed.same (fun _ => ?_) ?_
  · rw [Location.journal, Location.beside_concat, companion_of_reaches storage.reaches storage.fits,
      storage.journal]
    rfl
  · rw [Location.log, Location.beside_concat]
    exact Companion.isFilled_of_isSeen storage.log

namespace Session

variable {s : Session} {fs fs' : FileSystem} {o : Opening} {opened : OpenState} {l : Location}
  {name : String} {attached attached' : Attached} {e : SessionError}

/-- When the manifest cannot be kept, all that has become of the tree is what asking the store
leaves. -/
theorem refreshManifest_eq_error
    (h : s.refreshManifest fs opened attached = (attached', fs', .error e)) :
    fs' = (attached.save fs (attached.load fs).visitMetadata).2 := by
  unfold refreshManifest at h
  split at h
  · cases h
  · split_ifs at h
    · dsimp only at h
      split at h
      · cases h
        rfl
      · cases h
    · cases h

/-- **However far the schema of a new file gets**, the store writes its file, and takes away what
was left over beside it. -/
theorem createSchema_sheds {loc : Location} {id : FileId} (sound : fs.Sound)
    (there : fs.node? loc = some (.file id)) (empty : fs.content id = .plain [])
    (faults : FaultPlan) :
    fs.Sheds loc ((Attached.ofNew loc id faults).save fs
      ((Attached.ofNew loc id faults).load fs).createSchema.1).2 := by
  obtain ⟨c₀, loaded, content, -, direct, -⟩ := Attached.load_ofNew loc empty faults
  have engine₀ : ((Attached.ofNew loc id faults).load fs).engine = .connection c₀ := by rw [loaded]
  obtain ⟨c, engine, direct'⟩ := c₀.direct_lasting.connected_createSchema
    ⟨c₀, engine₀, .refl direct (.inl (by rw [content]; rfl))⟩
  obtain ⟨c', engine', log⟩ := c₀.log_lasting.connected_createSchema ⟨c₀, engine₀, .inl rfl⟩
  obtain rfl : c = c' := by
    rw [engine] at engine'
    cases engine'
    rfl
  exact Attached.save_sheds sound there rfl engine₀ engine direct' log

/-- **When the new file gets no schema or no manifest**, nothing else has become of the tree. -/
theorem furnish_sheds (plot : fs.Plot o.uri l name) (sound : fs.Sound)
    (h : s.furnish (fs.addFile (l ++ [name]) (.plain [])).1 o opened
      (.ofNew (l ++ [name]) fs.contents.length o.faults) = (attached, fs', .error e)) :
    (fs.addFile (l ++ [name]) (.plain [])).1.Sheds (l ++ [name]) fs' ∧ fs'.Sound := by
  have there := node?_addFile plot.vacant (.plain [])
  have empty := content_addFile fs (l ++ [name]) (.plain [])
  have reaches : (fs.addFile (l ++ [name]) (.plain [])).1.Reaches l := plot.reaches.of_append rfl
  have sound₁ := plot.sound_addFile sound
  generalize (fs.addFile (l ++ [name]) (.plain [])).1 = fs₁ at there empty reaches sound₁ h ⊢
  let new := Attached.ofNew (l ++ [name]) fs.contents.length o.faults
  have sheds := createSchema_sheds sound₁ there empty o.faults
  have sound₂ := sound₁.save new (new.load fs₁).createSchema.1
  unfold furnish at h
  rcases made : (new.load fs₁).createSchema with ⟨store, e' | _⟩ <;> rw [made] at h sheds sound₂
  · cases h
    exact ⟨sheds, sound₂⟩
  · obtain ⟨content', -, -, works⟩ :=
      Desk.works_of_createSchema sound₁.tree reaches plot.entry there empty made
    obtain rfl : fs' = (new.save fs₁ store).2 :=
      (refreshManifest_eq_error h).trans ((works s).save_visited sound₂)
    exact ⟨sheds, sound₂⟩

/-- **A failed opening for writing is undone.** -/
theorem openWriting_undone (s : Session) (sound : fs.Sound) (key : StoreKey)
    (writes : o.mode = .readWrite) (fits : o.Fits)
    (failed : (s.openWriting fs key o).answer = .error e) :
    o.Undone fs (s.openWriting fs key o).files := by
  have directories := Opening.Undone.of_directories (o := o) sound
  unfold openWriting at failed ⊢
  cases backing : o.backingName? with
  | none => exact .refl sound
  | some name =>
    rw [backing] at failed
    dsimp only at failed ⊢
    rcases made : fs.makeDirectories o.uri with ⟨fs₁, e' | _⟩ <;> rw [made] at directories failed
    · exact directories
    · dsimp only at failed ⊢
      obtain ⟨-, -, l, leads⟩ := makeDirectories_eq_ok made
      split_ifs at failed ⊢ with there
      · exact directories
      · obtain ⟨noFile, noDirectory⟩ : fs₁.isFile (o.uri.join name) = false ∧
            fs₁.isDirectory (o.uri.join name) = false := by simpa using there
        rcases opens : o.openBacking fs₁ (o.uri.join name) with ⟨fs₂, answer⟩
        rw [opens] at failed
        obtain ⟨rfl, e, rfl⟩ | ⟨plot, rfl, new⟩ :=
          Opening.openBacking_cases writes backing fits leads noFile noDirectory opens
        · dsimp only
          rw [removeFile_of_not_isFile noFile]
          exact directories
        · have removed : ∀ {fs₃ : FileSystem},
              (fs₁.addFile (l ++ [name]) (.plain [])).1.Sheds (l ++ [name]) fs₃ → fs₃.Sound →
                o.Undone fs (fs₃.removeFile (o.uri.join name)) :=
            fun sheds sound₃ => .of_sheds sound made backing plot sheds sound₃
          cases answer with
          | error e => exact removed (.refl _ _) (plot.sound_addFile directories.sound)
          | ok a =>
            obtain rfl := new a rfl
            dsimp only at failed ⊢
            rcases furnished : s.furnish (fs₁.addFile (l ++ [name]) (.plain [])).1 o
                { store := key, mode := o.mode, uri := some o.uri, files := [name] }
                (.ofNew (l ++ [name]) fs₁.contents.length o.faults) with ⟨a', fs₃, e | _⟩
            · obtain ⟨sheds, sound₃⟩ := furnish_sheds plot directories.sound furnished
              exact removed sheds sound₃
            · rw [furnished] at failed
              cases failed

end Session

end SealedLog

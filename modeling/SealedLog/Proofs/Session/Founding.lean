import SealedLog.Proofs.Session.Serving

/-!
# Founding a storage

A session that opens a directory for writing makes a backing file where nothing stands, or makes
none. When anything goes wrong after that, the file is removed again. Either way all other backing
files stay as they are.

* `FileSystem.Plot`: the place for a new backing file;
* `Opening.openBacking_cases`, `Session.furnish_plot`: making the file, and its schema and manifest;
* `Session.openWriting_cases`: what opening for writing comes to.
-/

namespace SealedLog

open FileSystem Manifest

namespace FileSystem

variable {fs fs' : FileSystem} {uri : Path} {l loc : Location} {name : String} {P : Location → Prop}

/-- The place in a directory where a backing file can be made, which then is found again. -/
structure Plot (fs : FileSystem) (uri : Path) (l : Location) (name : String) : Prop
    extends fs.Archive uri l name where
  named : Location.IsBacking (l ++ [name])
  reaches : fs.Reaches l
  entry : IsEntry name
  vacant : fs.node? (l ++ [name]) = none

/-- What stays on the grounds of a backing file that is not there respects all that are. -/
theorem Within.respects_of_new (within : fs.Within loc.Owns fs') (isBacking : loc.IsBacking)
    (new : ∀ id, fs.node? loc ≠ some (.file id)) : fs.Respects none fs' := by
  refine ⟨within.directories, fun b id isBacking' there _ => ?_⟩
  apply (within.respects isBacking).backing b id isBacking' there
  rintro ⟨⟩
  exact new id there

theorem Plot.within_addFile (plot : fs.Plot uri l name) (sound : fs.Sound) :
    fs.Within (Location.Owns (l ++ [name])) (fs.addFile (l ++ [name]) (.plain [])).1 :=
  .addFile sound.tree plot.vacant (.inl rfl) _

/-- A file may be put where nothing stands in a directory. -/
theorem Sound.addFile_concat (sound : fs.Sound) (reaches : fs.Reaches l) (entry : IsEntry name)
    (vacant : fs.node? (l ++ [name]) = none) (content : Content) :
    (fs.addFile (l ++ [name]) content).1.Sound := by
  have walks := reaches.walk_concat entry
  rw [found, vacant] at walks
  exact sound.addFile walks content

theorem Plot.sound_addFile (plot : fs.Plot uri l name) (sound : fs.Sound) :
    (fs.addFile (l ++ [name]) (.plain [])).1.Sound :=
  sound.addFile_concat plot.reaches plot.entry plot.vacant _

theorem removeFile_of_not_isFile {p : Path} (noFile : fs.isFile p = false) :
    fs.removeFile p = fs := by
  unfold removeFile
  split
  · rename_i located
    rw [isFile, located] at noFile
    cases noFile
  · rfl

/-- The backing file is removed, if it is there. -/
theorem Plot.removeFile (plot : fs.Plot uri l name) (stay : ∀ l, fs.Reaches l → fs'.Reaches l)
    (sound : fs'.Sound) :
    fs'.Within (Location.Owns (l ++ [name])) (fs'.removeFile (uri.join name)) := by
  apply Within.removeFile sound
  intro loc id located
  rw [locate_join plot.segment plot.entry (plot.leads.mono .root stay) plot.fits] at located
  unfold found at located
  cases there : fs'.node? (l ++ [name]) with
  | none =>
    rw [there] at located
    cases located
  | some node =>
    rw [there] at located
    cases node <;> cases located
    exact .inl rfl

end FileSystem

/-! ### Making the file -/

namespace Opening

variable {o : Opening} {fs fs' : FileSystem} {l : Location} {name : String}
  {answer : Except StoreError Attached}

theorem isBacking_of_backingName? (h : o.backingName? = some name) (l : Location) :
    Location.IsBacking (l ++ [name]) := by
  obtain ⟨stem, -, rfl⟩ := Option.map_eq_some_iff.1 h
  exact ⟨l, stem, rfl⟩

/-- **The backing file is made where nothing stands, or not at all.** -/
theorem openBacking_cases (writes : o.mode = .readWrite) (backing : o.backingName? = some name)
    (fits : o.Fits)
    (leads : fs.Leads [] o.uri.segments l) (noFile : fs.isFile (o.uri.join name) = false)
    (noDirectory : fs.isDirectory (o.uri.join name) = false)
    (h : o.openBacking fs (o.uri.join name) = (fs', answer)) :
    (fs' = fs ∧ ∃ e, answer = .error e) ∨
      fs.Plot o.uri l name ∧ fs' = (fs.addFile (l ++ [name]) (.plain [])).1 ∧
        ∀ new, answer = .ok new →
          new = .ofNew (l ++ [name]) fs.contents.length o.faults := by
  obtain ⟨segment, notHere, notUp, apart⟩ := of_backingName? backing
  have file := fits.databaseFile?_eq backing
  cases resolved : fs.resolve (o.uri.join name) with
  | none =>
    obtain ⟨e, failed⟩ := openBacking_of_not_resolved (o := o) file resolved
    rw [failed] at h
    cases h
    exact .inl ⟨rfl, e, rfl⟩
  | some location =>
    obtain ⟨entry, rfl, again⟩ := resolve_join segment notHere notUp file leads resolved
    have allowed := checkPath_of_resolve resolved (fits name backing).1
    have reaches := leads.reaches .root
    have vacant := vacant_of_locate segment entry leads allowed noFile noDirectory
    have plot : fs.Plot o.uri l name :=
      ⟨⟨segment, apart, leads, allowed, again⟩, isBacking_of_backingName? backing l, reaches, entry,
        vacant⟩
    refine .inr ⟨plot, ?_, fun new made => ?_⟩
    · have found : fs.findDatabase (o.uri.join name) .readWrite =
          some ((fs.addFile (l ++ [name]) (.plain [])).1, l ++ [name], fs.contents.length) := by
        rw [findDatabase_eq resolved reaches entry, vacant]
        rfl
      rw [openBacking, openStore, writes, found] at h
      dsimp only at h
      cases refused : o.refusal <;> rw [refused] at h <;> exact (Prod.mk.inj h).1.symm
    · rw [made] at h
      exact (openBacking_of_vacant writes resolved reaches entry vacant h).2

end Opening

namespace Session

variable {s : Session} {fs fs' : FileSystem} {o : Opening} {opened : OpenState} {l : Location}
  {name : String} {attached : Attached} {answer : Except SessionError Unit}

/-- **The new file gets its schema and its manifest**, or something fails; all that happens on the
grounds of the file. -/
theorem furnish_plot (plot : fs.Plot o.uri l name) (sound : fs.Sound)
    (harmless : IsHarmless s.config.manifestName)
    (h : s.furnish (fs.addFile (l ++ [name]) (.plain [])).1 o opened
      (.ofNew (l ++ [name]) fs.contents.length o.faults) = (attached, fs', answer)) :
    fs.Within (Location.Owns (l ++ [name])) fs' ∧ fs'.Sound ∧
      (answer = .ok () → ∀ session, (⟨session, fs', attached⟩ : Desk).Serves l name
        fs.contents.length ∧ (⟨session, fs', attached⟩ : Desk).store.tables = {}) := by
  have there := node?_addFile plot.vacant (.plain [])
  have empty := content_addFile fs (l ++ [name]) (.plain [])
  have first := plot.within_addFile sound
  have sound₁ := plot.sound_addFile sound
  generalize (fs.addFile (l ++ [name]) (.plain [])).1 = fs₁ at there empty first sound₁ h
  obtain ⟨c₀, loaded, content, -, direct, -⟩ :=
    Attached.load_ofNew (l ++ [name]) empty o.faults
  -- however far the schema gets, the store stays on its grounds
  obtain ⟨c, engine, direct'⟩ := c₀.direct_lasting.connected_createSchema
    (s := (Attached.ofNew (l ++ [name]) fs.contents.length o.faults).load fs₁)
    ⟨c₀, by rw [loaded], .refl direct (.inl (by rw [content]; rfl))⟩
  have second := first.trans (Attached.save_within sound₁ there rfl (by rw [loaded]) engine direct')
  have sound₂ := sound₁.save (.ofNew (l ++ [name]) fs.contents.length o.faults)
    (((Attached.ofNew (l ++ [name]) fs.contents.length o.faults).load fs₁).createSchema).1
  unfold furnish at h
  rcases made : ((Attached.ofNew (l ++ [name]) fs.contents.length o.faults).load
      fs₁).createSchema with ⟨store, e | _⟩ <;> rw [made] at h second sound₂
  · cases h
    exact ⟨second, sound₂, fun ok => nomatch ok⟩
  · obtain ⟨content', none, -, works⟩ := Desk.works_of_createSchema sound₁.tree
      (first.directories l plot.reaches) plot.entry there empty made
    have serves := Desk.Serves.of_works (works s) sound₂ plot.named
    have refreshed := serves.refresh harmless opened
    dsimp only at h
    rw [h] at refreshed
    refine ⟨second.trans (refreshed s).2.1, (refreshed s).1.sound, fun _ session => ?_⟩
    obtain ⟨serves', -, tables⟩ := refreshed session
    exact ⟨serves', tables.trans ((works s).store.2.trans none)⟩

/-- **What opening for writing comes to**: new directories at most, or also what happens on the
grounds of a new backing file, which the session serves if it succeeds. -/
theorem openWriting_cases (s : Session) (sound : fs.Sound) (key : StoreKey)
    (writes : o.mode = .readWrite) (harmless : IsHarmless s.config.manifestName) (fits : o.Fits) :
    (fs.Within (fun _ => False) (s.openWriting fs key o).files ∧
        ∃ e, (s.openWriting fs key o).answer = .error e) ∨
      ∃ fs₁ l name, o.backingName? = some name ∧ fs.Within (fun _ => False) fs₁ ∧
        fs₁.Plot o.uri l name ∧
        fs₁.Within (Location.Owns (l ++ [name])) (s.openWriting fs key o).files ∧
        ∀ a, (s.openWriting fs key o).answer = .ok a → ∀ session,
          (⟨session, (s.openWriting fs key o).files, a⟩ : Desk).Serves l name
            fs₁.contents.length ∧
          (⟨session, (s.openWriting fs key o).files, a⟩ : Desk).store.tables = {} := by
  unfold openWriting
  cases backing : o.backingName? with
  | none => exact .inl ⟨.refl fs _, _, rfl⟩
  | some name =>
    have directories := Within.makeDirectories fs (fun _ => False) o.uri
    have sound₁ := sound.makeDirectories o.uri
    dsimp only
    rcases made : fs.makeDirectories o.uri with ⟨fs₁, e | _⟩ <;> rw [made] at directories sound₁
    · exact .inl ⟨directories, _, rfl⟩
    · dsimp only
      obtain ⟨-, -, l, leads⟩ := makeDirectories_eq_ok made
      split_ifs with there
      · exact .inl ⟨directories, _, rfl⟩
      · obtain ⟨noFile, noDirectory⟩ : fs₁.isFile (o.uri.join name) = false ∧
            fs₁.isDirectory (o.uri.join name) = false := by simpa using there
        rcases opens : o.openBacking fs₁ (o.uri.join name) with ⟨fs₂, answer⟩
        obtain ⟨rfl, e, rfl⟩ | ⟨plot, rfl, new⟩ :=
          Opening.openBacking_cases writes backing fits leads noFile noDirectory opens
        · -- no file was made, so that none is removed
          dsimp only
          rw [removeFile_of_not_isFile noFile]
          exact .inl ⟨directories, _, rfl⟩
        · refine .inr ⟨fs₁, l, name, rfl, directories, plot, ?_⟩
          have discards : ∀ {fs₃ : FileSystem}, fs₁.Within (Location.Owns (l ++ [name])) fs₃ →
              fs₃.Sound → fs₁.Within (Location.Owns (l ++ [name]))
                (fs₃.removeFile (o.uri.join name)) :=
            fun within sound₃ => within.trans (plot.removeFile within.directories sound₃)
          cases answer with
          | error e => exact ⟨discards (plot.within_addFile sound₁) (plot.sound_addFile sound₁),
              fun a answer => nomatch answer⟩
          | ok a =>
            obtain rfl := new a rfl
            dsimp only
            rcases furnished : s.furnish (fs₁.addFile (l ++ [name]) (.plain [])).1 o
                { store := key, mode := o.mode, uri := some o.uri, files := [name] }
                (.ofNew (l ++ [name]) fs₁.contents.length o.faults) with ⟨a', fs₃, e | _⟩
            · obtain ⟨within, sound₃, -⟩ := furnish_plot plot sound₁ harmless furnished
              exact ⟨discards within sound₃, fun a answer => nomatch answer⟩
            · obtain ⟨within, -, serves⟩ := furnish_plot plot sound₁ harmless furnished
              refine ⟨within, fun a answer => ?_⟩
              cases answer
              exact serves rfl

/-- **Opening for writing respects all backing files that are there.** -/
theorem openWriting_respects (s : Session) (sound : fs.Sound) (key : StoreKey)
    (writes : o.mode = .readWrite) (harmless : IsHarmless s.config.manifestName) (fits : o.Fits) :
    fs.Respects none (s.openWriting fs key o).files := by
  obtain ⟨within, -⟩ | ⟨fs₁, l, name, -, first, plot, second, -⟩ :=
    s.openWriting_cases sound key writes harmless fits
  · refine ⟨within.directories, fun b id _ there _ => within.leaves ?_ there⟩
    exact ⟨fun never => never, fun never => never, fun never => never⟩
  · apply Within.respects_of_new ((first.mono fun _ never => never.elim).trans second) plot.named
    intro id there
    have still := (first.files (l ++ [name]) id (fun never => never)).2 there
    rw [plot.vacant] at still
    cases still

end Session

end SealedLog

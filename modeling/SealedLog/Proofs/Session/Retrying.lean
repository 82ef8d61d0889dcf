import SealedLog.Proofs.Files.Shape
import SealedLog.Proofs.Session.Undoing

/-!
# Opening again

What a failed opening leaves does not stand in the way of another one: whatever opening of the
directory for writing succeeds in a tree succeeds also in that tree after the failed opening.

* `Undone.tidies`: with its directories made, the one tree differs from the other in what is left
  over beside the place for the backing file;
* `createSchema_again`, `refreshManifest_again`: so the backing file gets its schema and its
  manifest;
* `Session.openWriting_again`, `Undone.repeats`: the opening succeeds again;
* `Session.failed_open_undone`: what a failed opening leaves, and that it can be made again.
-/

namespace SealedLog

open FileSystem

variable {fs fs' fs₁ fs₁' : FileSystem} {o : Opening} {l : Location} {name : String}
  {id id' : FileId} {faults : FaultPlan} {store : Store} {opened : OpenState}

/-- What is left of the difference once the directories were made. -/
theorem Opening.Undone.tidies (undone : o.Undone fs fs') (backing : o.backingName? = some name)
    (made : fs.makeDirectories o.uri = (fs₁, .ok ()))
    (made' : fs'.makeDirectories o.uri = (fs₁', .ok ())) :
    fs₁.Tidies (o.uri.location ++ [name]) fs₁' := by
  obtain ⟨-, adds, _, leads⟩ := makeDirectories_eq_ok made
  obtain ⟨-, adds', _, leads'⟩ := makeDirectories_eq_ok made'
  refine ⟨fun loc => ⟨fun there => ?_, fun there => ?_⟩, fun loc content holds => ?_,
    fun loc content holds => ?_⟩
  · obtain old | way := makeDirectories_onWay made' there
    · obtain old | way := undone.made loc old
      · exact adds.keeps old
      · exact (leads.reaches_onWay way).there
    · exact (leads.reaches_onWay way).there
  · obtain old | way := makeDirectories_onWay made there
    · exact adds'.keeps (undone.directories loc old)
    · exact (leads'.reaches_onWay way).there
  · exact adds.holds_iff.2 (undone.files loc content (adds'.holds_iff.1 holds))
  · refine (undone.kept loc content (adds.holds_iff.1 holds)).imp adds'.holds_iff.2 ?_
    rintro ⟨name', backing', -, leftOver⟩
    rw [backing] at backing'
    cases backing'
    exact leftOver

theorem Opening.Undone.filesWithin (undone : o.Undone fs fs') : fs.FilesWithin fs' := by
  intro loc id there
  obtain ⟨id', standing, -⟩ := undone.files loc _ ⟨id, there, rfl⟩
  exact ⟨id', standing⟩

namespace Opening

variable {p : Path} {attached : Attached}

/-- What an opening has in mind that has opened a file: it was not made to fail. -/
theorem refusal_of_openBacking (h : o.openBacking fs p = (fs', .ok attached)) :
    o.refusal = none := by
  unfold openBacking at h
  split at h
  · cases h
  · split at h
    · cases h
    · assumption

/-- Where nothing stands a backing file can be made. -/
theorem openBacking_of_vacant_eq_ok (writes : o.mode = .readWrite) (willing : o.refusal = none)
    (resolved : fs.resolve p = some (l ++ [name])) (reaches : fs.Reaches l) (entry : IsEntry name)
    (vacant : fs.node? (l ++ [name]) = none) :
    o.openBacking fs p = ((fs.addFile (l ++ [name]) (.plain [])).1,
      .ok (.ofNew (l ++ [name]) fs.contents.length o.faults)) := by
  have found : fs.findDatabase p .readWrite = some ((fs.addFile (l ++ [name]) (.plain [])).1,
      l ++ [name], fs.contents.length) := by
    rw [findDatabase_eq resolved reaches entry, vacant]
    rfl
  rw [openBacking, openStore, writes, found]
  dsimp only
  rw [content_addFile, willing]
  rfl

end Opening

/-- **A schema that can be created in one tree can be created in the other.** -/
theorem createSchema_again (tidies : fs.Tidies (l ++ [name]) fs') (tree' : fs'.IsTree)
    (reaches : fs.Reaches l) (entry : IsEntry name)
    (empty : fs.content id = .plain []) (file' : fs'.node? (l ++ [name]) = some (.file id'))
    (empty' : fs'.content id' = .plain [])
    (made : ((Attached.ofNew (l ++ [name]) id faults).load fs).createSchema = (store, .ok ())) :
    ∃ store', ((Attached.ofNew (l ++ [name]) id' faults).load fs').createSchema = (store', .ok ()) ∧
      store'.faults = store.faults := by
  obtain ⟨c, loaded, content, mode, direct, place, journal, log⟩ :=
    Attached.load_ofNew (l ++ [name]) empty faults
  obtain ⟨c', loaded', content', mode', direct', place', journal', log'⟩ :=
    Attached.load_ofNew (l ++ [name]) empty' faults
  rw [loaded] at made
  obtain ⟨fair, _, done, rfl⟩ := Store.createSchema_eq_ok_iff.1 made
  obtain ⟨-, -, -, -, inPlace, noJournal, noLog, -⟩ :=
    Connection.createSchema_of_isEmpty content direct done
  have fits := isEntry_journal_of_place (place.symm.trans inPlace)
  have reaches' := tidies.reaches l reaches
  have site : fs'.Site l name id' := ⟨tree', reaches', entry, fits, file'⟩
  -- directories stand in both trees or in neither
  have noDirectory : ∀ {other}, IsEntry other → fs.companion (l ++ [other]) ≠ .directory →
      fs'.companion (l ++ [other]) ≠ .directory := by
    intro other entry' free directory
    have there : fs'.node? (l ++ [other]) = some .directory := by
      rw [companion_of_reaches reaches' entry'] at directory
      split at directory
      · assumption
      · cases directory
      · cases directory
    rw [companion_of_reaches reaches entry', (tidies.directories _).1 there] at free
    exact free rfl
  rw [Location.journal, Location.beside_concat] at journal journal'
  rw [Location.log, Location.beside_concat] at log log'
  obtain ⟨c'', done'⟩ := Connection.createSchema_succeeds content' direct' mode'
    (place'.trans site.place) (journal' ▸ noDirectory fits (journal ▸ noJournal))
    (log' ▸ noDirectory fits.log (log ▸ noLog))
  rw [loaded']
  exact ⟨_, Store.createSchema_eq_ok_iff.2 ⟨fair, c'', done', rfl⟩, rfl⟩

/-- A store in good order answers its metadata unless its operations are made to fail. -/
theorem Store.InUse.metadata_isOk_iff {mode : AccessMode} {content : Content}
    (inUse : store.InUse mode content faults) (opened : OpenState) :
    (∃ m, opened.metadata store = .ok m) ↔ faults .statistics = none ∧ faults .size = none := by
  obtain ⟨rfl, c, engine, use⟩ := inUse
  obtain ⟨d, t, steady, current⟩ := use.database
  constructor
  · rintro ⟨m, h⟩
    obtain ⟨statistics, said, h⟩ := Except.bind_eq_ok_iff.1 h
    obtain ⟨octets, size, -⟩ := Except.bind_eq_ok_iff.1 h
    exact ⟨(Store.guarded_eq_ok_iff.1 (StoreError.during_eq_ok_iff.1 said)).1,
      (Store.guarded_eq_ok_iff.1 (StoreError.during_eq_ok_iff.1 size)).1⟩
  · rintro ⟨fair, fair'⟩
    have said : store.statistics = .ok t.statistics := by
      refine Store.guarded_eq_ok_iff.2 ⟨fair, ?_⟩
      rw [engine]
      dsimp only
      rw [steady.query current]
      rfl
    obtain ⟨octets, size⟩ : ∃ octets, store.size = .ok octets := by
      refine ⟨if c.settle.content.isEmpty then 0 else d.size, Store.guarded_eq_ok_iff.2 ⟨fair', ?_⟩⟩
      rw [engine]
      dsimp only
      rw [Connection.size, steady.read]
      rfl
    rw [OpenState.metadata, said, size]
    exact ⟨_, rfl⟩

namespace Session

variable {s : Session} {key : StoreKey}

/-- **A manifest that can be written in one tree can be written in one of the same shape.** -/
theorem refreshManifest_again {attached attached' : Attached} {uri : Path}
    {content content' : Content} {attached₁ : Attached} {files₁ : FileSystem}
    (works : Desk.Works ⟨s, fs, attached⟩ l name id .readWrite content) (sound : fs.Sound)
    (works' : Desk.Works ⟨s, fs', attached'⟩ l name id' .readWrite content') (sound' : fs'.Sound)
    (faults : attached'.store.faults = attached.store.faults) (same : fs.SameShape fs')
    (at' : opened.uri = some uri) (mode : opened.mode = .readWrite)
    (h : s.refreshManifest fs opened attached = (attached₁, files₁, .ok ())) :
    ∃ a files, s.refreshManifest fs' opened attached' = (a, files, .ok ()) := by
  cases writes : s.config.writesManifest with
  | false =>
    refine ⟨attached', fs', ?_⟩
    unfold refreshManifest
    rw [at', writes, Bool.and_false]
    rfl
  | true =>
    obtain ⟨-, m, said, written⟩ := refreshManifest_eq_ok at' mode writes h
    have save : (attached.save fs (attached.load fs).visitMetadata).2 = fs :=
      works.save_visited sound
    have save' : (attached'.save fs' (attached'.load fs').visitMetadata).2 = fs' :=
      works'.save_visited sound'
    rw [save] at written
    obtain ⟨m', said'⟩ := (works'.store.1.metadata_isOk_iff opened).2
      (faults ▸ (works.store.1.metadata_isOk_iff opened).1 ⟨m, said⟩)
    obtain ⟨files, written'⟩ := same.write_again written (Manifest.ofMetadata m').document
    have kept : (opened.metadata (attached'.load fs')).bind
        (s.saveManifest (attached'.save fs' (attached'.load fs').visitMetadata).2 uri) =
          .ok files := by
      rw [save']
      refine Except.bind_eq_ok_iff.2 ⟨m', said', ?_⟩
      unfold saveManifest Manifest.save
      rw [written']
    refine ⟨(attached'.save fs' (attached'.load fs').visitMetadata).1, files, ?_⟩
    unfold refreshManifest
    rw [at', mode, writes]
    dsimp only
    rw [if_pos (by decide), kept]

/-- **What a new file gets in one tree it gets in the other.** -/
theorem furnish_again (tidies : fs.Tidies (l ++ [name]) fs') (sound : fs.Sound) (sound' : fs'.Sound)
    (reaches : fs.Reaches l) (entry : IsEntry name)
    (file : fs.node? (l ++ [name]) = some (.file id)) (empty : fs.content id = .plain [])
    (file' : fs'.node? (l ++ [name]) = some (.file id')) (empty' : fs'.content id' = .plain [])
    {uri : Path} (at' : opened.uri = some uri) (mode : opened.mode = .readWrite)
    {attached : Attached} {files : FileSystem}
    (h : s.furnish fs o opened (.ofNew (l ++ [name]) id faults) = (attached, files, .ok ())) :
    ∃ a files', s.furnish fs' o opened (.ofNew (l ++ [name]) id' faults) = (a, files', .ok ()) := by
  let new := Attached.ofNew (l ++ [name]) id faults
  let new' := Attached.ofNew (l ++ [name]) id' faults
  obtain ⟨store, schema, refreshed⟩ := furnish_eq_ok h
  obtain ⟨store', schema', same⟩ :=
    createSchema_again tidies sound'.tree reaches entry empty file' empty' schema
  have sheds := createSchema_sheds sound file empty faults
  have sheds' := createSchema_sheds sound' file' empty' faults
  rw [schema] at sheds
  rw [schema'] at sheds'
  obtain ⟨content, -, -, works⟩ :=
    Desk.works_of_createSchema sound.tree reaches entry file empty schema
  obtain ⟨content', -, -, works'⟩ := Desk.works_of_createSchema sound'.tree
    (tidies.reaches l reaches) entry file' empty' schema'
  have faulty : (new'.save fs' store').1.store.faults = (new.save fs store).1.store.faults := by
    rw [Attached.save_store, Attached.save_store, same]
  obtain ⟨a, files', refreshed'⟩ := refreshManifest_again (works s)
    (sound.save new store) (works' s) (sound'.save new' store') faulty
    (tidies.sameShape sheds (works s).storage sheds' (works' s).storage) at' mode refreshed
  refine ⟨a, files', ?_⟩
  unfold furnish
  rw [schema']
  exact refreshed'

/-- What opening for writing has to go through to succeed. -/
theorem openWriting_of_steps {fs₂ : FileSystem} {new attached : Attached} {files : FileSystem}
    (backing : o.backingName? = some name) (made : fs.makeDirectories o.uri = (fs₁, .ok ()))
    (noFile : fs₁.isFile (o.uri.join name) = false)
    (noDirectory : fs₁.isDirectory (o.uri.join name) = false)
    (opens : o.openBacking fs₁ (o.uri.join name) = (fs₂, .ok new))
    (furnished : s.furnish fs₂ o
      { store := key, mode := o.mode, uri := some o.uri, files := [name] } new =
        (attached, files, .ok ())) : (s.openWriting fs key o).answer = .ok attached := by
  unfold openWriting
  rw [backing]
  dsimp only
  rw [made]
  dsimp only
  rw [noFile, noDirectory]
  simp only [Bool.or_self, Bool.false_eq_true, if_false]
  rw [opens]
  dsimp only
  rw [furnished]

/-- **A storage that can be founded in one tree can be founded in the other.** -/
theorem openWriting_again (undone : o.Undone fs fs') (sound : fs.Sound)
    (writes : o.mode = .readWrite) (fits : o.Fits) {a : Attached}
    (h : (s.openWriting fs key o).answer = .ok a) :
    ∃ a', (s.openWriting fs' key o).answer = .ok a' := by
  obtain ⟨name, fs₁, fs₂, new, backing, made, noFile, noDirectory, opens, furnished, -⟩ :=
    openWriting_eq_ok h
  obtain ⟨segment, notHere, notUp, -⟩ := Opening.of_backingName? backing
  obtain ⟨-, adds, l, leads⟩ := makeDirectories_eq_ok made
  have file := fits.databaseFile?_eq backing
  obtain ⟨location, resolved⟩ := Opening.resolve_of_openBacking file opens
  obtain ⟨entry, rfl, found⟩ := resolve_join segment notHere notUp file leads resolved
  have allowed := checkPath_of_resolve resolved (fits name backing).1
  have reaches := leads.reaches .root
  have vacant := vacant_of_locate segment entry leads allowed noFile noDirectory
  have willing := Opening.refusal_of_openBacking opens
  obtain ⟨rfl, rfl⟩ := Opening.openBacking_of_vacant writes resolved reaches entry vacant opens
  have sound₁ : fs₁.Sound := by
    have sound₁ := sound.makeDirectories o.uri
    rwa [made] at sound₁
  -- in the other tree there is a place for the file as well
  obtain ⟨fs₁', made'⟩ := makeDirectories_again made undone.directories undone.filesWithin
  have sound₁' : fs₁'.Sound := by
    have sound₁' := undone.sound.makeDirectories o.uri
    rwa [made'] at sound₁'
  have tidies := undone.tidies backing made made'
  rw [leads.location] at tidies
  have leads' := leads.mono .root tidies.reaches
  have reaches' := tidies.reaches l reaches
  have vacant' := tidies.vacant vacant
  have located' := locate_join segment entry leads' allowed
  rw [FileSystem.found, vacant'] at located'
  have opens' := Opening.openBacking_of_vacant_eq_ok writes willing (found fs₁' tidies.reaches)
    reaches' entry vacant'
  obtain ⟨a', files', furnished'⟩ := furnish_again
    (tidies.addFile sound₁.tree sound₁'.tree vacant (.plain []))
    (sound₁.addFile_concat reaches entry vacant _)
    (sound₁'.addFile_concat reaches' entry vacant' _) (reaches.of_append rfl) entry
    (node?_addFile vacant _) (content_addFile ..) (node?_addFile vacant' _) (content_addFile ..)
    rfl writes furnished
  refine ⟨a', openWriting_of_steps backing made' ?_ ?_ opens' furnished'⟩
  · rw [isFile, located']
  · rw [isDirectory, located']

end Session

/-- Whatever opening of the directory for writing succeeds in one tree succeeds in the other: by any
session that is closed, whatever its configuration is and whatever is made to fail. -/
def Opening.Repeats (o : Opening) (fs fs' : FileSystem) : Prop :=
  ∀ (s : Session) (key : StoreKey) (again : Opening), s.opened = none → again.uri = o.uri →
    again.mode = .readWrite → (∃ a, (s.openAt fs key again).answer = .ok a) →
    ∃ a, (s.openAt fs' key again).answer = .ok a

/-- What an opening leaves is a matter of its path. -/
theorem Opening.Undone.of_uri {again : Opening} (same : again.uri = o.uri)
    (undone : o.Undone fs fs') : again.Undone fs fs' := by
  obtain ⟨uri, mode, faults, refusal⟩ := o
  obtain ⟨uri', mode', faults', refusal'⟩ := again
  obtain rfl : uri' = uri := same
  exact ⟨undone.sound, undone.files, undone.kept, undone.directories, undone.made⟩

/-- **What a failed opening leaves does not stand in the way of another one.** -/
theorem Opening.Undone.repeats (undone : o.Undone fs fs') (sound : fs.Sound) (fits : o.Fits) :
    o.Repeats fs fs' := by
  rintro s key again closed same writes ⟨a, h⟩
  have opens : ∀ fs, s.openAt fs key again = s.openWriting fs key again := fun fs => by
    rw [Session.openAt_of_closed closed, writes]
    rfl
  rw [opens] at h ⊢
  exact Session.openWriting_again (undone.of_uri same) sound writes (fits.of_uri same) h

namespace Session

/-- **A failed opening for writing is undone, and can be made again.** The session is as it was, and
so are all files but a journal or a log that was left over beside the place for the backing file;
only directories on the way of the path may have come. What has succeeded before it succeeds after
it, also when something was taken out that stood in its way; and so in any two trees that differ as
those before and after it. -/
theorem failed_open_undone {s : Session} {o : Opening} {e : SessionError} (sound : fs.Sound)
    (closed : s.opened = none) (writes : o.mode = .readWrite) (fits : o.Fits) (key : StoreKey)
    (failed : (s.openAt fs key o).answer = .error e) :
    (s.openAt fs key o).session = s ∧ o.Undone fs (s.openAt fs key o).files ∧
      o.Repeats fs (s.openAt fs key o).files ∧
      (∀ loc, o.Repeats (fs.removeAt loc) ((s.openAt fs key o).files.removeAt loc)) ∧
      ∀ before after, before.Sound → o.Undone before after → o.Repeats before after := by
  have opens : s.openAt fs key o = s.openWriting fs key o := by
    rw [openAt_of_closed closed, writes]
    rfl
  have undone : o.Undone fs (s.openAt fs key o).files := by
    rw [opens] at failed ⊢
    exact s.openWriting_undone sound key writes fits failed
  exact ⟨openAt_eq_error failed, undone, undone.repeats sound fits,
    fun loc => (undone.removeAt loc).repeats (sound.removeAt loc) fits,
    fun before after sound' undone' => undone'.repeats sound' fits⟩

/-- A directory stands in the place of the manifest. The opening fails, and succeeds once the
directory was taken out. -/
theorem failed_open_undone_of_directory :
    let s := Session.ofNonce (Nonce.fill 1) {}
    let o : Opening := { uri := ⟨"run"⟩, mode := .readWrite }
    let fs := (FileSystem.makeDirectories {} ⟨"run/metadata.json"⟩).1
    s.opened = none ∧ fs.Sound ∧ (∃ e, (s.openAt fs 0 o).answer = .error e) ∧
      (s.openAt fs 0 o).session = s ∧ o.Undone fs (s.openAt fs 0 o).files ∧
      ∃ a, (s.openAt ((s.openAt fs 0 o).files.removeAt ["run", "metadata.json"]) 0 o).answer =
        .ok a := by
  intro s o fs
  have sound : fs.Sound := Sound.empty.makeDirectories _
  have named : o.backingName? = some "run.db3" := by decide +kernel
  have fits : o.Fits := .of_backingName? named (by decide +kernel)
  obtain ⟨e, failed⟩ : ∃ e, (s.openAt fs 0 o).answer = .error e := by
    have refused : (s.openAt fs 0 o).answer.isOk = false := by decide +kernel
    cases answer : (s.openAt fs 0 o).answer with
    | error e => exact ⟨e, rfl⟩
    | ok a =>
      rw [answer] at refused
      cases refused
  have cleared : ∃ a, (s.openAt (fs.removeAt ["run", "metadata.json"]) 0 o).answer = .ok a := by
    have done : (s.openAt (fs.removeAt ["run", "metadata.json"]) 0 o).answer.isOk = true := by
      decide +kernel
    cases answer : (s.openAt (fs.removeAt ["run", "metadata.json"]) 0 o).answer with
    | ok a => exact ⟨a, rfl⟩
    | error e =>
      rw [answer] at done
      cases done
  obtain ⟨session, undone, -, again, -⟩ := failed_open_undone sound rfl rfl fits 0 failed
  exact ⟨rfl, sound, ⟨e, failed⟩, session, undone, again _ s 0 o rfl rfl rfl cleared⟩

/-- A journal that stands beside the place for the backing file is gone when the opening has
failed. -/
theorem failed_open_takes_journal :
    let s := Session.ofNonce (Nonce.fill 1) {}
    let o : Opening := { uri := ⟨"run"⟩, mode := .readWrite }
    let fs := ((FileSystem.makeDirectories {} ⟨"run/metadata.json"⟩).1.addFile
      ["run", "run.db3-journal"] (.plain [120])).1
    s.opened = none ∧ fs.Sound ∧ (s.openAt fs 0 o).answer.isOk = false ∧
      fs.isFile ⟨"run/run.db3-journal"⟩ = true ∧
      (s.openAt fs 0 o).files.isFile ⟨"run/run.db3-journal"⟩ = false := by
  intro s o fs
  have vacant : (FileSystem.makeDirectories {} ⟨"run/metadata.json"⟩).1.walk []
      ["run", "run.db3-journal"] = .ok (.vacant ["run", "run.db3-journal"]) := by
    decide +kernel
  have sound : fs.Sound := (Sound.empty.makeDirectories _).addFile vacant _
  exact ⟨rfl, sound, by decide +kernel, by decide +kernel, by decide +kernel⟩

end Session

end SealedLog

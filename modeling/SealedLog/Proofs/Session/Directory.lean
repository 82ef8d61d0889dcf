import SealedLog.Proofs.Json.Form
import SealedLog.Proofs.Session.Desk
import SealedLog.Proofs.Session.Rest

/-!
# Sessions on directories

A session that is opened for writing makes a storage in a directory and puts a manifest beside it;
one that is opened for reading follows the manifest to the storage.

* `FileSystem.Archive`, `FileSystem.Stored`: what is needed to find a storage again, and that it is
  in good order;
* `Desk.openAt_writing`: what opening for writing leaves, `works_of_createSchema` for the new file
  and `Works.refresh` for the manifest;
* `Desk.openAt_reading`: what opening for reading finds;
* `Desk.Leaves`, `Works.close_writing`, `Works.close_reading`: what is left in the end.
-/

namespace SealedLog

/-- The name of manifests, unless a session is told another one. -/
def Manifest.defaultName : String := ({} : SessionConfig).manifestName

theorem Manifest.isSegment_defaultName : Path.IsSegment defaultName := ⟨by decide, by decide⟩

theorem Manifest.isEntry_defaultName : IsEntry defaultName := ⟨by decide, by decide, by decide⟩

open FileSystem Manifest

namespace FileSystem

variable {fs fs' : FileSystem} {uri : Path} {l : Location} {name : String} {id : FileId}

/-- A storage in a directory can be found again from its path. -/
structure Archive (fs : FileSystem) (uri : Path) (l : Location) (name : String) : Prop where
  segment : Path.IsSegment name
  apart : IsApart name defaultName
  leads : fs.Leads [] uri.segments l
  fits : checkPath (uri.join name) = .ok ()
  resolves : ∀ fs' : FileSystem, (∀ l, fs.Reaches l → fs'.Reaches l) →
    fs'.resolve (uri.join name) = some (l ++ [name])

theorem Archive.mono (archive : fs.Archive uri l name)
    (stay : ∀ l, fs.Reaches l → fs'.Reaches l) : fs'.Archive uri l name where
  segment := archive.segment
  apart := archive.apart
  leads := archive.leads.mono .root stay
  fits := archive.fits
  resolves fs'' stay' := archive.resolves fs'' fun l reaches => stay' l (stay l reaches)

/-- A storage is in good order, with a manifest that names its file. -/
structure Stored (fs : FileSystem) (uri : Path) (l : Location) (name : String) (id : FileId)
    (content : Content) (m : StorageMetadata) : Prop where
  archive : fs.Archive uri l name
  storage : fs.Storage l name id content
  database : ∃ db n t, content = .database db n ∧ db.Current t
  manifest : fs.Holds (l ++ [defaultName]) (.plain (Manifest.ofMetadata m).document)
  files : m.files = [name]

end FileSystem

theorem OpenState.metadata_eq_ok {o : OpenState} {store : Store} {m : StorageMetadata}
    (numbered : store.tables.Numbered) (h : o.metadata store = .ok m) :
    ∃ octets, m = .ofStatistics o.files store.tables.statistics octets := by
  obtain ⟨statistics, said, h⟩ := Except.bind_eq_ok_iff.1 h
  obtain ⟨octets, -, h⟩ := Except.bind_eq_ok_iff.1 h
  cases h
  rw [← Store.statistics_eq_ok numbered (StoreError.during_eq_ok_iff.1 said)]
  exact ⟨octets, rfl⟩

/-- A schema that a store creates is one that its connection creates, unless that is made to
fail. -/
theorem Store.createSchema_eq_ok_iff {c : Connection} {faults : FaultPlan} {store : Store} :
    Store.createSchema { engine := .connection c, faults := faults } = (store, .ok ()) ↔
      faults .createSchema = none ∧ ∃ c', c.createSchema = (c', .ok ()) ∧
        store = { engine := .connection c', faults := faults } := by
  unfold createSchema change
  dsimp only
  cases faults .createSchema with
  | some e => simp
  | none =>
    constructor
    · intro made
      obtain ⟨rfl, done⟩ := Prod.mk.inj made
      exact ⟨rfl, c.createSchema.1, Prod.ext rfl done, rfl⟩
    · rintro ⟨-, c', done, rfl⟩
      rw [done]

/-- The store of a database file that was just made. -/
def Attached.ofNew (loc : Location) (id : FileId) (faults : FaultPlan) : Attached where
  store := { engine := .connection { content := .plain [], mode := .readWrite }, faults := faults }
  file := some (loc, id)

theorem Attached.load_ofNew {fs : FileSystem} {id : FileId} (loc : Location)
    (empty : fs.content id = .plain []) (faults : FaultPlan) : ∃ c : Connection,
      (ofNew loc id faults).load fs = { engine := .connection c, faults := faults } ∧
      c.content = .plain [] ∧ c.mode = .readWrite ∧ c.isLogged = false ∧
      c.place = fs.place loc id ∧ c.journal = fs.companion loc.journal ∧
      c.log = fs.companion loc.log :=
  ⟨_, rfl, empty, rfl, rfl, rfl, rfl, rfl⟩

/-- Beside a file that is in its place there is a place for its journal. -/
theorem FileSystem.isEntry_journal_of_place {fs : FileSystem} {l : Location} {name : String}
    {id : FileId} (inPlace : fs.place (l ++ [name]) id = .inPlace) :
    IsEntry (name ++ "-journal") := by
  have ends : "-journal".toList.getLast? = some 'l' := by decide
  refine ⟨append_ne ends (by decide) name, append_ne ends (by decide) name, ?_⟩
  rw [FileSystem.place, Location.journal, Location.beside_concat] at inPlace
  split_ifs at inPlace with long
  rw [isNameTooLong, List.getLast?_concat, decide_eq_true_eq] at long
  exact Nat.not_lt.1 long

namespace Desk

variable {d : Desk} {l : Location} {name : String} {id : FileId} {content : Content} {uri : Path}
  {o : OpenState} {s : Session} {attached : Attached} {files : FileSystem}

/-- A session that writes puts the manifest of what its store has beside the storage. -/
theorem Works.refresh (works : d.Works l name id .readWrite content)
    (archive : d.files.Archive uri l name) (opened : o.uri = some uri) (mode : o.mode = .readWrite)
    (writes : s.config.writesManifest = true) (named : s.config.manifestName = defaultName)
    (h : s.refreshManifest d.files o d.attached = (attached, files, .ok ())) :
    ∃ m, o.metadata d.store = .ok m ∧
      files.Holds (l ++ [defaultName]) (.plain (Manifest.ofMetadata m).document) ∧
      FileSystem.checkPath (uri.join defaultName) = .ok () ∧ files.Archive uri l name ∧
      ∃ content', content'.tables = content.tables ∧
        ∀ s', Desk.Works ⟨s', files, attached⟩ l name id .readWrite content' := by
  have lasting := Store.InUse.lasting .readWrite content d.attached.store.faults
  obtain ⟨content', works', spares, -, tables, -⟩ :=
    works.put d.session (Session.visitMetadata_lasting lasting.toViewed works.store.1)
  rw [Session.tables_visitMetadata, works.store.2] at tables
  obtain ⟨rfl, m, said, written⟩ := Session.refreshManifest_eq_ok opened mode writes h
  rw [Session.manifestPath, named] at written
  have archive' := archive.mono spares.directories
  obtain ⟨fine, puts⟩ := write_join works'.storage.tree isSegment_defaultName isEntry_defaultName
    archive'.leads written
  refine ⟨m, said, puts.holds, fine, archive'.mono puts.directories, content', tables.symm,
    fun s' => ⟨?_, works'.sees, works'.database, works'.opened⟩⟩
  exact works'.storage.puts archive.apart puts

/-- **A new file becomes a storage in good order** once it gets its schema. -/
theorem works_of_createSchema {fs : FileSystem} (tree : fs.IsTree) (reaches : fs.Reaches l)
    (entry : IsEntry name) (file : fs.node? (l ++ [name]) = some (.file id))
    (empty : fs.content id = .plain []) {faults : FaultPlan} {store : Store}
    (made : ((Attached.ofNew (l ++ [name]) id faults).load fs).createSchema = (store, .ok ())) :
    ∃ content, content.tables = {} ∧
      fs.Spares l name id ((Attached.ofNew (l ++ [name]) id faults).save fs store).2 ∧
      ∀ s, Desk.Works ⟨s, ((Attached.ofNew (l ++ [name]) id faults).save fs store).2,
        ((Attached.ofNew (l ++ [name]) id faults).save fs store).1⟩
        l name id .readWrite content := by
  obtain ⟨c, loaded, content, mode, direct, place, journal, log⟩ :=
    Attached.load_ofNew (l ++ [name]) empty faults
  rw [Location.journal, Location.beside_concat] at journal
  rw [Location.log, Location.beside_concat] at log
  rw [loaded] at made
  obtain ⟨-, c', done, rfl⟩ := Store.createSchema_eq_ok_iff.1 made
  obtain ⟨⟨db, steady, current⟩, mode', -, looked, inPlace, noJournal, noLog, gone⟩ :=
    Connection.createSchema_of_isEmpty content direct done
  -- there is a place for the journal, or the schema could not have been written
  have fits := isEntry_journal_of_place (place.symm.trans inPlace)
  have site : fs.Site l name id := ⟨tree, reaches, entry, fits, file⟩
  have sees : (Attached.ofNew (l ++ [name]) id faults).Sees (l ++ [name]) id (.plain []) :=
    ⟨rfl, rfl, ⟨_, rfl, rfl⟩, fun _ h => by cases h⟩
  have before : ((Attached.ofNew (l ++ [name]) id faults).load fs).content? = some (.plain []) := by
    rw [loaded, Store.content?]
    dsimp only
    rw [Connection.settle_content_of_isEmpty (by rw [content]; rfl), content]
  rw [journal, companion_of_reaches reaches fits] at noJournal
  rw [log] at noLog gone
  have engine : ({ engine := .connection c', faults := faults } : Store).engine = .connection c' :=
    rfl
  obtain ⟨same, sees', storage, spares⟩ := sees.save site empty before
    (fun there => noJournal (by rw [there]))
    (fun there => noLog (by rw [companion_of_reaches reaches fits.log, there])) engine steady
    (gone.imp_right And.right) (.inl looked)
  obtain ⟨n, content'⟩ := steady.content
  refine ⟨c'.content, ?_, spares, fun s => ⟨storage, sees', ⟨db, n, {}, content', current⟩, c', ?_,
    mode'.trans mode⟩⟩
  · rw [← steady.tables_eq, steady.tables current]
  · rw [same]

end Desk

/-- Where a path finds neither a file nor a directory nothing stands. -/
theorem FileSystem.vacant_of_locate {fs : FileSystem} {p : Path} {l : Location} {name : String}
    (segment : Path.IsSegment name) (entry : IsEntry name) (leads : fs.Leads [] p.segments l)
    (fine : checkPath (p.join name) = .ok ()) (noFile : fs.isFile (p.join name) = false)
    (noDirectory : fs.isDirectory (p.join name) = false) : fs.node? (l ++ [name]) = none := by
  have located := locate_join segment entry leads fine
  rw [isFile, located] at noFile
  rw [isDirectory, located] at noDirectory
  unfold FileSystem.found at noFile noDirectory
  cases there : fs.node? (l ++ [name]) with
  | none => rfl
  | some node =>
    rw [there] at noFile noDirectory
    cases node with
    | directory => cases noDirectory
    | file id => cases noFile

namespace Opening

variable {o : Opening} {fs fs' : FileSystem} {p : Path} {attached : Attached} {l : Location}
  {name : String}

/-- The path of the backing file fits in a path, and is no URI. -/
def Fits (o : Opening) : Prop :=
  ∀ name, o.backingName? = some name →
    (Bytes.ofText (o.uri.join name).text).length ≤ maxPath ∧ (o.uri.join name).isUri = false

/-- An opening has one backing file, so that one path tells. -/
theorem Fits.of_backingName? (backing : o.backingName? = some name)
    (fits : (Bytes.ofText (o.uri.join name).text).length ≤ maxPath ∧
      (o.uri.join name).isUri = false) : o.Fits := by
  intro other backing'
  obtain rfl : name = other := Option.some.inj (backing.symm.trans backing')
  exact fits

theorem Fits.of_uri {again : Opening} (fits : o.Fits) (same : again.uri = o.uri) : again.Fits := by
  intro name backing
  rw [same]
  exact fits name (by rwa [backingName?, ← same])

/-- The path of a backing file stands for itself. -/
theorem Fits.databaseFile?_eq (fits : o.Fits) (backing : o.backingName? = some name) :
    (o.uri.join name).databaseFile? = some (o.uri.join name) := by
  apply Path.databaseFile?_eq_some (fits name backing).2
  obtain ⟨stem, -, rfl⟩ := Option.map_eq_some_iff.1 backing
  have ends : backingExtension.toList.getLast? = some '3' := by decide
  obtain ⟨front, text, -⟩ := o.uri.exists_text_join (stem ++ backingExtension)
  rw [Path.isPrivate, text, ← String.append_assoc, Bool.or_eq_false_iff]
  exact ⟨beq_false_of_ne (append_ne ends (by decide) _),
    beq_false_of_ne (append_ne ends (by decide) _)⟩

/-- Where the path means no location nothing is opened. -/
theorem openBacking_of_not_resolved (file : p.databaseFile? = some p)
    (none : fs.resolve p = none) : ∃ e, o.openBacking fs p = (fs, .error e) := by
  have unfound : fs.findDatabase p o.mode = Option.none := by
    rw [findDatabase, none]
    rfl
  rw [openBacking, openStore, unfound, openPrivate_of_databaseFile? file]
  exact ⟨_, rfl⟩

/-- What is opened is a location that the path means. -/
theorem resolve_of_openBacking (file : p.databaseFile? = some p)
    (h : o.openBacking fs p = (fs', .ok attached)) : ∃ location, fs.resolve p = some location := by
  cases resolved : fs.resolve p with
  | some location => exact ⟨location, rfl⟩
  | none =>
    obtain ⟨e, failed⟩ := openBacking_of_not_resolved file resolved
    rw [failed] at h
    cases h

/-- Where nothing stands a new file is made. -/
theorem openBacking_of_vacant (writes : o.mode = .readWrite)
    (resolved : fs.resolve p = some (l ++ [name])) (reaches : fs.Reaches l) (entry : IsEntry name)
    (vacant : fs.node? (l ++ [name]) = none) (h : o.openBacking fs p = (fs', .ok attached)) :
    fs' = (fs.addFile (l ++ [name]) (.plain [])).1 ∧
      attached = .ofNew (l ++ [name]) fs.contents.length o.faults := by
  have found : fs.findDatabase p .readWrite = some ((fs.addFile (l ++ [name]) (.plain [])).1,
      l ++ [name], fs.contents.length) := by
    rw [findDatabase_eq resolved reaches entry, vacant]
    rfl
  rw [openBacking, openStore, writes, found] at h
  dsimp only at h
  rw [content_addFile] at h
  cases refused : o.refusal with
  | some e =>
    rw [refused] at h
    cases h
  | none =>
    rw [refused] at h
    cases h
    exact ⟨rfl, rfl⟩

/-- The backing file of a directory has a name that is none of the other files' there. -/
theorem of_backingName? (h : o.backingName? = some name) :
    Path.IsSegment name ∧ name ≠ "." ∧ name ≠ ".." ∧ IsApart name defaultName := by
  obtain ⟨stem, named, rfl⟩ := Option.map_eq_some_iff.1 h
  have ends : backingExtension.toList.getLast? = some '3' := by decide
  have journal : "-journal".toList.getLast? = some 'l' := by decide
  have log : "-wal".toList.getLast? = some 'l' := by decide
  have mem : stem ∈ o.uri.segments := by
    unfold Path.fileName? at named
    split at named
    · cases named
    · rename_i last
      split_ifs at named
      cases named
      exact (List.mem_filter.1 (List.mem_of_getLast? last)).1
  have segment := Path.isSegment_of_mem mem
  refine ⟨⟨?_, ?_⟩, append_ne ends (by decide) stem, append_ne ends (by decide) stem,
    (append_ne ends (by decide) stem).symm, (append_ne journal (by decide) _).symm,
    (append_ne log (by decide) _).symm⟩
  · rw [String.toList_append]
    exact List.append_ne_nil_of_left_ne_nil segment.some _
  · rw [String.toList_append, List.mem_append, not_or]
    exact ⟨segment.single, by decide⟩

end Opening

namespace Desk

variable {d : Desk} {s : Session} {fs : FileSystem} {key : StoreKey} {o : Opening} {uri : Path}
  {l : Location} {name : String} {id : FileId} {content : Content}

/-- Open a session on the storage in a directory. -/
def openAt (s : Session) (fs : FileSystem) (key : StoreKey) (o : Opening) :
    Except SessionError Desk :=
  (s.openAt fs key o).answer.map fun attached =>
    { session := (s.openAt fs key o).session
      files := (s.openAt fs key o).files
      attached := attached }

/-- A session has been opened on a storage in good order. -/
structure Opened (d : Desk) (s : Session) (key : StoreKey) (uri : Path) (mode : AccessMode)
    (l : Location) (name : String) (id : FileId) (content : Content) : Prop where
  session : d.session =
    { s with opened := some { store := key, mode := mode, uri := uri, files := [name] } }
  archive : d.files.Archive uri l name
  works : d.Works l name id mode content

/-- **What opening for writing leaves**: a storage in good order that has no rows, and its manifest
beside it. -/
theorem openAt_writing (tree : fs.IsTree) (writes : o.mode = .readWrite)
    (manifest : s.config.writesManifest = true) (named : s.config.manifestName = defaultName)
    (fits : o.Fits) (h : openAt s fs key o = .ok d) :
    ∃ l name id content m, d.Opened s key o.uri .readWrite l name id content ∧
      content.tables = {} ∧ m.files = [name] ∧
      d.files.Holds (l ++ [defaultName]) (.plain (Manifest.ofMetadata m).document) ∧
      checkPath (o.uri.join defaultName) = .ok () := by
  obtain ⟨attached, answer, rfl⟩ := Except.map_eq_ok_iff.1 h
  have same := Session.openAt_of_readWrite writes answer
  rw [same] at answer ⊢
  obtain ⟨name, fs₁, fs₂, new, backing, made, noFile, noDirectory, opens, furnished, session⟩ :=
    Session.openWriting_eq_ok answer
  obtain ⟨segment, notHere, notUp, apart⟩ := Opening.of_backingName? backing
  obtain ⟨-, adds, l, leads⟩ := makeDirectories_eq_ok made
  have file := fits.databaseFile?_eq backing
  obtain ⟨location, resolved⟩ := Opening.resolve_of_openBacking file opens
  obtain ⟨entry, rfl, again⟩ := resolve_join segment notHere notUp file leads resolved
  have allowed := checkPath_of_resolve resolved (fits name backing).1
  have tree₁ := adds.isTree tree
  have reaches := leads.reaches .root
  have vacant := vacant_of_locate segment entry leads allowed noFile noDirectory
  obtain ⟨rfl, rfl⟩ := Opening.openBacking_of_vacant writes resolved reaches entry vacant opens
  have puts := tree₁.puts_addFile vacant (.plain [])
  obtain ⟨store, schema, refreshed⟩ := Session.furnish_eq_ok furnished
  obtain ⟨content, none, spares, works⟩ := works_of_createSchema puts.tree
    (puts.directories l reaches) entry (node?_addFile vacant _) (content_addFile ..) schema
  have archive : fs₁.Archive o.uri l name := ⟨segment, apart, leads, allowed, again⟩
  obtain ⟨m, said, holds, fine, archive', content', same, works'⟩ := (works s).refresh
    ((archive.mono puts.directories).mono spares.directories) rfl writes manifest named refreshed
  refine ⟨l, name, _, content', m, ⟨?_, archive', works' _⟩, same.trans none, ?_, holds, fine⟩
  · rw [session, writes]
  · obtain ⟨octets, rfl⟩ := OpenState.metadata_eq_ok (by
      rw [(works s).store.2, none]
      exact Tables.Ordered.empty.numbered) said
    rfl

end Desk

theorem Manifest.load_join {fs : FileSystem} {uri : Path} {l : Location} {m : Manifest}
    (leads : fs.Leads [] uri.segments l) (fine : checkPath (uri.join defaultName) = .ok ())
    (holds : fs.Holds (l ++ [defaultName]) (.plain m.document)) :
    Manifest.load fs (uri.join defaultName) = Manifest.parse m.document := by
  rw [Manifest.load, (read_join isSegment_defaultName isEntry_defaultName leads fine holds).2]

theorem Manifest.parse_document_ofMetadata (m : StorageMetadata) :
    Manifest.parse (ofMetadata m).document = .ok (ofMetadata m) := by
  rw [parse_document]
  exact if_neg (UInt32.lt_irrefl _)

theorem checkSchema_of_steady {c : Connection} {d : Database} {t : Tables} (steady : c.Steady d)
    (current : d.Current t) (p : Path) : checkSchema p c = .ok () := by
  have version : (Except.ok d : Except StoreError Database).bind Database.version =
      .ok schemaVersion := current.version
  rw [checkSchema, steady.read, version]
  exact if_pos rfl

namespace Desk

variable {d : Desk} {s : Session} {fs : FileSystem} {key : StoreKey} {o : Opening} {uri : Path}
  {l : Location} {name : String} {id : FileId} {content : Content} {m : StorageMetadata}

/-- The manifest of a storage leads to its file. -/
theorem findBacking_of_stored (named : s.config.manifestName = defaultName)
    (stored : fs.Stored uri l name id content m)
    (fine : checkPath (uri.join defaultName) = .ok ()) :
    s.findBacking fs uri = .ok (uri.join name, [name]) := by
  have there : fs.Holds (l ++ [name]) content := ⟨id, stored.storage.file, stored.storage.content⟩
  have leads := stored.archive.leads
  have loaded : Manifest.load fs (s.manifestPath uri) = .ok (ofMetadata m) := by
    rw [Session.manifestPath, named, Manifest.load_join leads fine stored.manifest,
      Manifest.parse_document_ofMetadata]
  have listed : (ofMetadata m).files = [name] := stored.files
  unfold Session.findBacking
  simp only [loaded, listed]
  exact if_pos (read_join stored.archive.segment stored.storage.entry leads stored.archive.fits
    there).1

/-- A storage can be opened for reading, and stays as it is. -/
theorem works_of_openStore (s : Session) (storage : fs.Storage l name id content)
    (database : ∃ db n t, content = .database db n ∧ db.Current t) {p : Path}
    (resolved : fs.resolve p = some (l ++ [name])) :
    ∃ files attached, fs.openStore p .readOnly = (files, .ok attached) ∧
      fs.Spares l name id files ∧ attached.store.faults = FaultPlan.none ∧
      Works ⟨s, files, attached⟩ l name id .readOnly content := by
  -- the store before it has looked at the file
  let new : Attached :=
    { store := { engine := .connection { content := fs.content id, mode := .readOnly } }
      file := some (l ++ [name], id) }
  have works : Works ⟨s, fs, new⟩ l name id .readOnly content :=
    ⟨storage, ⟨rfl, rfl, ⟨_, rfl, rfl⟩, fun _ h => nomatch h⟩, database, _, rfl, rfl⟩
  obtain ⟨⟨-, c, engine, inUse⟩, -⟩ := works.store
  obtain ⟨db, t, steady, current⟩ := inUse.database
  have looked : Store.InUse .readOnly content FaultPlan.none { engine := .connection c.visit } :=
    ⟨rfl, c.visit, rfl, inUse.visit⟩
  obtain ⟨content', works', spares, kept, -, same⟩ := works.put s looked
  obtain rfl := kept rfl
  have opens : fs.openStore p .readOnly =
      ((new.save fs { engine := .connection c.visit }).2,
        .ok (new.save fs { engine := .connection c.visit }).1) := by
    have found : fs.findDatabase p .readOnly = some (fs, l ++ [name], id) := by
      rw [findDatabase_eq resolved storage.reaches storage.entry, storage.file]
    rw [FileSystem.openStore, found]
    dsimp only
    rw [show (new.load fs).engine = .connection c from engine]
    dsimp only
    rw [checkSchema_of_steady steady current]
    rfl
  exact ⟨_, _, opens, spares, congrArg Store.faults same, works'⟩

theorem works_of_openBacking (s : Session) (stored : fs.Stored uri l name id content m) :
    ∃ files attached, Opening.openBacking { uri := uri, mode := .readOnly } fs (uri.join name) =
        (files, .ok attached) ∧ fs.Spares l name id files ∧
      attached.store.faults = FaultPlan.none ∧
      Works ⟨s, files, attached⟩ l name id .readOnly content := by
  obtain ⟨files, attached, opens, spares, -, works⟩ := works_of_openStore s stored.storage
    stored.database (stored.archive.resolves fs fun _ h => h)
  refine ⟨files, _, ?_, spares, rfl, works.failing FaultPlan.none⟩
  unfold Opening.openBacking
  simp only [opens]

/-- **What opening for reading finds** is the storage that the manifest names, as it was left. -/
theorem openAt_reading (closed : s.opened = none) (named : s.config.manifestName = defaultName)
    (stored : fs.Stored uri l name id content m) (fine : checkPath (uri.join defaultName) = .ok ())
    (key : StoreKey) :
    ∃ d, openAt s fs key { uri := uri, mode := .readOnly } = .ok d ∧
      d.Opened s key uri .readOnly l name id content ∧ fs.Spares l name id d.files ∧
      d.attached.store.faults = FaultPlan.none := by
  let opened : OpenState := { store := key, mode := .readOnly, uri := some uri, files := [name] }
  obtain ⟨files', attached, opens, spares, faults, works⟩ :=
    works_of_openBacking { s with opened := some opened } stored
  have found := findBacking_of_stored named stored fine
  have reads : s.openAt fs key { uri := uri, mode := .readOnly } =
      s.openReading fs key { uri := uri, mode := .readOnly } := by
    unfold Session.openAt Session.isOpen
    rw [closed]
    rfl
  refine ⟨_, ?_, ⟨rfl, stored.archive.mono spares.directories, works⟩, spares, faults⟩
  unfold openAt
  rw [reads]
  unfold Session.openReading
  simp only [found, opens]
  rfl

end Desk

/-! ### Closing -/

/-- Nothing becomes of any tree when a store is closed that works on no log. -/
theorem Attached.close_of_no_log {a : Attached} (none : a.log = none) (fs : FileSystem)
    (isShared : Bool) : a.close fs isShared = fs := by
  unfold Attached.close
  rw [none]
  split <;> simp_all

namespace Desk

variable {d : Desk} {s : Session} {fs : FileSystem} {key : StoreKey} {o : Opening} {uri : Path}
  {l : Location} {name : String} {id : FileId} {content : Content} {m : StorageMetadata}

/-- Close the session. -/
def close (d : Desk) : CloseOutcome := d.session.close d.files d.attached

/-- The tree once the session and then its store are closed. -/
def closedFiles (d : Desk) : FileSystem := d.close.attached.close d.close.files false

/-- What is left of the tree when the session was closed, or was dropped without that. -/
inductive Leaves (d : Desk) : FileSystem → Prop
  | closed (done : d.close.answer = .ok ()) : d.Leaves d.closedFiles
  | dropped : d.Leaves (d.attached.close d.files false)

theorem close_of_sees {a : Attached} {loc : Location} (sees : a.Sees loc id content)
    (fs : FileSystem) (isShared : Bool) : a.close fs isShared = fs :=
  Attached.close_of_no_log sees.log fs isShared

/-- A session that is closed has its store work on no log, either. -/
theorem Works.log_close {mode : AccessMode} (works : d.Works l name id mode content) :
    d.close.attached.log = none := by
  unfold close
  cases there : d.session.opened with
  | none =>
    unfold Session.close
    rw [there]
    exact works.sees.log
  | some o =>
    rw [Session.close_of_opened there]
    dsimp only
    rcases d.session.refreshManifest_attached d.files o d.attached with same | same
    · rw [same]
      exact works.sees.log
    · have lasting := Store.InUse.lasting mode content d.attached.store.faults
      obtain ⟨_, works', -⟩ :=
        works.put d.session (Session.visitMetadata_lasting lasting.toViewed works.store.1)
      rw [same]
      exact works'.sees.log

/-- A session that reads leaves the tree as it is when it is closed. -/
theorem Works.close_reading (works : d.Works l name id .readOnly content)
    (reads : d.session.mode = some .readOnly) :
    d.close.answer = .ok () ∧ d.closedFiles = d.files := by
  rw [closedFiles, close, Session.close_of_reading reads]
  exact ⟨rfl, close_of_sees works.sees ..⟩

/-- A session that writes and is closed leaves a manifest of what the storage holds. -/
theorem Works.close_writing (works : d.Works l name id .readWrite content)
    (archive : d.files.Archive uri l name)
    (setting : d.session.setting = some (.readWrite, some uri, [name]))
    (writes : d.session.config.writesManifest = true)
    (named : d.session.config.manifestName = defaultName) (numbered : content.tables.Numbered)
    (done : d.close.answer = .ok ()) :
    ∃ content' octets, content'.tables = content.tables ∧
      d.closedFiles.Stored uri l name id content'
        (.ofStatistics [name] content.tables.statistics octets) := by
  obtain ⟨o, opened, same⟩ := Option.map_eq_some_iff.1 setting
  obtain ⟨mode, at', files⟩ : o.mode = .readWrite ∧ o.uri = some uri ∧ o.files = [name] := by
    simpa using same
  rcases refreshed : d.session.refreshManifest d.files o d.attached with ⟨attached, fs', answer⟩
  have closed : d.close = ⟨d.session.release, fs', attached, answer⟩ := by
    rw [close, Session.close_of_opened opened, refreshed]
  rw [closed] at done
  obtain rfl : answer = .ok () := done
  obtain ⟨m, said, holds, -, archive', content', tables, works'⟩ :=
    works.refresh archive at' mode writes named refreshed
  have final := works' d.session
  obtain ⟨octets, rfl⟩ := OpenState.metadata_eq_ok (works.store.2 ▸ numbered) said
  rw [works.store.2, files] at holds
  have left : d.closedFiles = fs' := by
    rw [closedFiles, closed]
    exact close_of_sees final.sees ..
  rw [left]
  exact ⟨content', octets, tables, archive', final.storage, final.database, holds, rfl⟩

end Desk

end SealedLog

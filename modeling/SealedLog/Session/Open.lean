import SealedLog.Files.Database
import SealedLog.Session

/-!
# Opening and closing sessions on directories

A storage is a directory with a backing file and a manifest that names it. It is written by the
session that makes its backing file, and by no other.

* `Session.openAt`: for reading, the manifest leads to the backing file; for writing, the backing
  file is made, named after the directory, and must not be there before;
* `Session.close`: a session that writes refreshes its manifest;
* `Opening`: what is opened, and what is made to fail.

Whatever goes wrong once the backing file is made removes it again.
-/

namespace SealedLog

/-- What a session is to open. -/
structure Opening where
  uri : Path
  mode : AccessMode
  /-- The operations of the opened store that fail. -/
  faults : FaultPlan := FaultPlan.none
  /-- How the opening itself fails, once the file is open. -/
  refusal : Option StoreError := none

/-- What opening a session leaves; the answer is the store that it has open. -/
structure OpenOutcome where
  session : Session
  files : FileSystem
  answer : Except SessionError Attached

/-- What closing a session leaves and answers. -/
structure CloseOutcome where
  session : Session
  files : FileSystem
  /-- The store that the session had open. -/
  attached : Attached
  answer : Except SessionError Unit

namespace Opening

/-- Open the backing file. -/
def openBacking (o : Opening) (fs : FileSystem) (backing : Path) :
    FileSystem × Except StoreError Attached :=
  match fs.openStore backing o.mode with
  | (fs, .error e) => (fs, .error e)
  | (fs, .ok attached) =>
    match o.refusal with
    | some e => (fs, .error e)
    | none => (fs, .ok { attached with store := { attached.store with faults := o.faults } })

/-- A store's refusal to be opened. -/
def refused (o : Opening) (e : StoreError) : SessionError := .backend (.openStorage o.uri) e

/-- The extension of backing files. -/
def backingExtension : String := ".db3"

/-- The name of the backing file of a directory. -/
def backingName? (o : Opening) : Option String := o.uri.fileName?.map (· ++ backingExtension)

end Opening

namespace Session

/-- The manifest of a directory. -/
def manifestPath (s : Session) (uri : Path) : Path := uri.join s.config.manifestName

/-- Write the manifest of a directory. -/
def saveManifest (s : Session) (fs : FileSystem) (uri : Path) (metadata : StorageMetadata) :
    Except SessionError FileSystem :=
  match (Manifest.ofMetadata metadata).save fs (s.manifestPath uri) with
  | .error e => .error (.manifest uri e)
  | .ok fs => .ok fs

/-- Write the manifest of an opened storage, if the session writes one. -/
def refreshManifest (s : Session) (fs : FileSystem) (o : OpenState) (attached : Attached) :
    Attached × FileSystem × Except SessionError Unit :=
  match o.uri with
  | none => (attached, fs, .ok ())
  | some uri =>
    if !o.mode.isReadOnly && s.config.writesManifest then
      let store := attached.load fs
      let (attached, fs) := attached.save fs store.visitMetadata
      match (o.metadata store).bind (s.saveManifest fs uri) with
      | .error e => (attached, fs, .error e)
      | .ok fs => (attached, fs, .ok ())
    else (attached, fs, .ok ())

/-- The backing file that a manifest leads to, and all files that it lists. -/
def findBacking (s : Session) (fs : FileSystem) (uri : Path) :
    Except SessionError (Path × List String) :=
  match Manifest.load fs (s.manifestPath uri) with
  | .error e => .error (.notFound uri (.unreadableManifest (s.manifestPath uri) e))
  | .ok manifest =>
    match manifest.files with
    | [] => .error (.notFound uri .noBackingFiles)
    | file :: _ =>
      let backing := uri.join file
      if fs.isFile backing then .ok (backing, manifest.files)
      else .error (.notFound uri (.noBackingFile backing))

/-- Open a storage for reading. -/
def openReading (s : Session) (fs : FileSystem) (key : StoreKey) (o : Opening) : OpenOutcome :=
  match s.findBacking fs o.uri with
  | .error e => ⟨s, fs, .error e⟩
  | .ok (backing, files) =>
    match o.openBacking fs backing with
    | (fs, .error e) => ⟨s, fs, .error (o.refused e)⟩
    | (fs, .ok attached) =>
      let opened : OpenState :=
        { store := key, mode := o.mode, uri := some o.uri, files := files }
      ⟨{ s with opened := some opened }, fs, .ok attached⟩

/-- Give a new backing file its schema and write the manifest. -/
def furnish (s : Session) (fs : FileSystem) (o : Opening) (opened : OpenState)
    (attached : Attached) : Attached × FileSystem × Except SessionError Unit :=
  let (store, answer) := (attached.load fs).createSchema
  let (attached, fs) := attached.save fs store
  match answer with
  | .error e => (attached, fs, .error (o.refused e))
  | .ok () => s.refreshManifest fs opened attached

/-- Open a storage for writing. -/
def openWriting (s : Session) (fs : FileSystem) (key : StoreKey) (o : Opening) : OpenOutcome :=
  match o.backingName? with
  | none => ⟨s, fs, .error (.notFound o.uri .noName)⟩
  | some name =>
    match fs.makeDirectories o.uri with
    | (fs, .error e) => ⟨s, fs, .error (o.refused (.file e))⟩
    | (fs, .ok ()) =>
      let backing := o.uri.join name
      if fs.isFile backing || fs.isDirectory backing then
        ⟨s, fs, .error (o.refused (.invalidData (backing.text ++
          " already exists; a chain cannot be resumed by a new session")))⟩
      else
        match o.openBacking fs backing with
        | (fs, .error e) => ⟨s, fs.removeFile backing, .error (o.refused e)⟩
        | (fs, .ok attached) =>
          let opened : OpenState :=
            { store := key, mode := o.mode, uri := some o.uri, files := [name] }
          match s.furnish fs o opened attached with
          | (_, fs, .error e) => ⟨s, fs.removeFile backing, .error e⟩
          | (attached, fs, .ok ()) => ⟨{ s with opened := some opened }, fs, .ok attached⟩

/-- Open the storage in a directory. -/
def openAt (s : Session) (fs : FileSystem) (key : StoreKey) (o : Opening) : OpenOutcome :=
  if s.isOpen then ⟨s, fs, .error .alreadyOpen⟩
  else if o.mode.isReadOnly then s.openReading fs key o
  else s.openWriting fs key o

/-- Close the session. It ends closed also when its manifest cannot be written. -/
def close (s : Session) (fs : FileSystem) (attached : Attached) : CloseOutcome :=
  match s.opened with
  | none => ⟨s, fs, attached, .ok ()⟩
  | some o =>
    let (attached, fs, answer) := s.refreshManifest fs o attached
    ⟨s.release, fs, attached, answer⟩

end Session

end SealedLog

import SealedLog.Manifest

/-!
# Errors of sessions

* `Task`: what a session was about when its store refused;
* `Absence`: why there is no storage to open;
* `SessionError`: why a session refuses, and `SessionError.message`.
-/

namespace SealedLog

/-- What a session was about when its store refused. -/
inductive Task
  | createSchema
  | prepareInsert
  | write (stream : String)
  | createStream (name : String)
  | readRecords
  | listStreams
  | aggregate
  | measure
  | openStorage (uri : Path)
  | auditAnchors
  | auditStream (name : String)
  deriving DecidableEq

/-- The wording of a task. -/
def Task.message : Task → String
  | .createSchema => "create schema"
  | .prepareInsert => "prepare record insert"
  | .write stream => "write to stream '" ++ stream ++ "'"
  | .createStream name => "create stream '" ++ name ++ "'"
  | .readRecords => "read records"
  | .listStreams => "list streams"
  | .aggregate => "aggregate stream statistics"
  | .measure => "measure storage size"
  | .openStorage uri => "open '" ++ uri.text ++ "'"
  | .auditAnchors => "audit stream anchors"
  | .auditStream name => "audit stream '" ++ name ++ "'"

/-- Why there is no storage to open. -/
inductive Absence
  | unreadableManifest (path : Path) (error : ManifestError)
  | noBackingFiles
  | noBackingFile (path : Path)
  /-- The storage has no name to derive the name of its backing file from. -/
  | noName
  deriving DecidableEq

/-- The wording of an absence. -/
def Absence.message : Absence → String
  | .unreadableManifest path error => "cannot read " ++ path.text ++ ": " ++ error.message
  | .noBackingFiles => "manifest lists no backing files"
  | .noBackingFile path => "backing file " ++ path.text ++ " does not exist"
  | .noName => "uri has no final path component to name the backing file"

/-- Why a session refuses. -/
inductive SessionError
  | notFound (uri : Path) (reason : Absence)
  | unknownStream (name : String)
  | backend (task : Task) (source : StoreError)
  | invalidInput (error : InputError)
  | endOfStream
  | notOpen
  | alreadyOpen
  | readOnly
  | manifest (uri : Path) (error : ManifestError)
  | unknownBackend (identifier : String)
  deriving DecidableEq

/-- The wording of a session error. -/
def SessionError.message : SessionError → String
  | .notFound uri reason => "no storage at '" ++ uri.text ++ "': " ++ reason.message
  | .unknownStream name => "unknown stream '" ++ name ++ "'"
  | .backend task source =>
    "storage backend error while trying to " ++ task.message ++ ": " ++ source.message
  | .invalidInput error => "invalid input: " ++ error.message
  | .endOfStream => "end of stream"
  | .notOpen => "session is not open"
  | .alreadyOpen => "session is already open"
  | .readOnly => "session is read-only"
  | .manifest uri error => "manifest error at '" ++ uri.text ++ "': " ++ error.message
  | .unknownBackend identifier => "unknown storage identifier '" ++ identifier ++ "'"

/-- A store's refusal of a task. -/
def StoreError.during {α : Type} (task : Task) : Except StoreError α → Except SessionError α
  | .error e => .error (.backend task e)
  | .ok a => .ok a

/-- An input error as the answer of a session. -/
def InputError.lift {α : Type} : Except InputError α → Except SessionError α
  | .error e => .error (.invalidInput e)
  | .ok a => .ok a

end SealedLog

import SealedLog.Files.Tree
import SealedLog.Metadata

/-!
# Manifests

A manifest is the file beside a storage that says what the storage holds, as a JSON document.

* `Manifest`, `Manifest.ofMetadata`, and the JSON form;
* `Manifest.parse`, `Manifest.load`, `Manifest.save`;
* `ManifestError`: why a manifest cannot be read or written.
-/

namespace SealedLog

/-- What a manifest says. -/
structure Manifest where
  version : UInt32
  identifier : String
  files : List String
  recordCount : UInt64
  startingTime : Int64
  duration : Int64
  streams : List StreamStatistics
  deriving DecidableEq

/-- Why a manifest cannot be read or written. -/
inductive ManifestError
  | file (error : FileError)
  /-- The file is no document of a manifest. -/
  | malformed
  | unsupportedVersion (version : UInt32)
  deriving DecidableEq

/-- The wording of a manifest error. -/
def ManifestError.message : ManifestError → String
  | .file error => "I/O error: " ++ error.message
  | .malformed => "malformed manifest"
  | .unsupportedVersion version => "unsupported manifest version " ++ toString version.toNat

instance : JsonForm Manifest where
  toJson m := .ofMembers
    [("version", toJson m.version), ("storage_identifier", toJson m.identifier),
      ("relative_file_paths", toJson m.files), ("record_count", toJson m.recordCount),
      ("starting_time_ns", toJson m.startingTime), ("duration_ns", toJson m.duration),
      ("streams", toJson m.streams)]
  ofJson? v := do
    match ← v.fields? ["version", "storage_identifier", "relative_file_paths", "record_count",
        "starting_time_ns", "duration_ns", "streams"] with
    | [version, identifier, files, count, start, duration, streams] =>
      return ⟨← ofJson? version, ← ofJson? identifier, ← ofJson? files, ← ofJson? count,
        ← ofJson? start, ← ofJson? duration, ← ofJson? streams⟩
    | _ => none

namespace Manifest

/-- The greatest version that can be read. -/
def supportedVersion : UInt32 := 1

/-- The manifest of a storage. -/
def ofMetadata (m : StorageMetadata) : Manifest where
  version := supportedVersion
  identifier := m.identifier
  files := m.files
  recordCount := m.recordCount
  startingTime := m.startingTime
  duration := m.duration
  streams := m.streams

/-- The document of a manifest. -/
def document (m : Manifest) : Bytes := JsonForm.prettyText m

/-- Read a document. The version is judged once the whole document is read. -/
def parse (document : Bytes) : Except ManifestError Manifest :=
  match JsonForm.parse? document with
  | none => .error .malformed
  | some (m : Manifest) =>
    if supportedVersion < m.version then .error (.unsupportedVersion m.version) else .ok m

/-- Read a manifest from a file. -/
def load (fs : FileSystem) (p : Path) : Except ManifestError Manifest :=
  match fs.read p with
  | .error e => .error (.file e)
  | .ok (.plain octets) => parse octets
  | .ok _ => .error .malformed

/-- Write a manifest to a file. -/
def save (m : Manifest) (fs : FileSystem) (p : Path) : Except ManifestError FileSystem :=
  match fs.write p m.document with
  | .error e => .error (.file e)
  | .ok fs => .ok fs

end Manifest

end SealedLog

import SealedLog.Store.Basic

/-!
# Storage metadata

What a storage holds at one moment: its files, the number and time range of its records, and the
statistics of its streams.

* `StorageMetadata`, `StorageMetadata.ofStatistics`, and the JSON form.
-/

namespace SealedLog

/-- What a storage holds. -/
structure StorageMetadata where
  identifier : String
  /-- The backing files, relative to the storage. -/
  files : List String
  recordCount : UInt64
  startingTime : Int64
  duration : Int64
  streams : List StreamStatistics
  sizeBytes : UInt64
  deriving DecidableEq

/-- The name of this kind of storage. -/
def storageIdentifier : String := "chainlog"

/-- The time from `first` to `last`, cut to 64 bits. -/
def timeBetween (first last : Int64) : Int64 := Int64.ofIntClamp (last.toInt - first.toInt)

/-- The metadata of a storage whose streams have these statistics. Without records it starts at
zero and lasts no time. -/
def StorageMetadata.ofStatistics (files : List String) (streams : List StreamStatistics)
    (sizeBytes : UInt64) : StorageMetadata :=
  let first := (streams.map StreamStatistics.minTimestamp).min?
  let last := (streams.map StreamStatistics.maxTimestamp).max?
  { identifier := storageIdentifier
    files := files
    recordCount := (streams.map StreamStatistics.count).foldl (· + ·) 0
    startingTime := first.getD 0
    duration :=
      match first, last with
      | some first, some last => timeBetween first last
      | _, _ => 0
    streams := streams
    sizeBytes := sizeBytes }

instance : JsonForm StorageMetadata where
  toJson m := .ofMembers
    [("storage_identifier", toJson m.identifier), ("relative_file_paths", toJson m.files),
      ("record_count", toJson m.recordCount), ("starting_time", toJson m.startingTime),
      ("duration", toJson m.duration), ("streams", toJson m.streams),
      ("size_bytes", toJson m.sizeBytes)]
  ofJson? v := do
    match ← v.fields? ["storage_identifier", "relative_file_paths", "record_count",
        "starting_time", "duration", "streams", "size_bytes"] with
    | [identifier, files, count, start, duration, streams, size] =>
      return ⟨← ofJson? identifier, ← ofJson? files, ← ofJson? count, ← ofJson? start,
        ← ofJson? duration, ← ofJson? streams, ← ofJson? size⟩
    | _ => none

end SealedLog

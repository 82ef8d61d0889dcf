import SealedLog.Store.Query

/-!
# Relational databases

A database as a set of tables: the versions of its schema, the streams and records, and tables of
no concern to the store. Octet strings in rows may have any length; only the store's own inserts
make them 32 octets long.

* `StreamRow`, `RecordRow`, `Tables`, `Database`;
* `Database.migrate`: bring the schema to the supported version;
* `Tables.addStream`, `Tables.addRecord`: inserts, with the constraints of the schema;
* `Tables.page`, `streamList`, `statistics`, `anchorList`, `chain`: queries;
* `Database.edit`: the changes that others make to a database.
-/

namespace SealedLog

/-- A row of the table of streams. -/
structure StreamRow where
  id : StreamId
  descriptor : StreamDescriptor
  nonce : Bytes
  digest : Bytes
  deriving DecidableEq

/-- A row of the table of records. -/
structure RecordRow where
  id : Int64
  stream : StreamId
  timestamp : Int64
  payload : Bytes
  digest : Bytes
  deriving DecidableEq

/-- The tables of the schema, each in the order of its row numbers. -/
structure Tables where
  streams : List StreamRow := []
  records : List RecordRow := []
  deriving DecidableEq

/-- A database. -/
structure Database where
  /-- The table of schema versions, once there is one. -/
  versions : Option (List Int64) := none
  /-- The tables of streams and records, once they have been created. -/
  tables : Option Tables := none
  /-- Whether there is a table of no concern to the store. -/
  unrelated : Bool := false
  deriving DecidableEq

namespace Tables

/-- The number after the greatest one, as long as numbers are left. -/
def nextId (ids : List Int64) : Except StoreError Int64 :=
  let greatest := Query.maxId ids
  if greatest < Int64.maxValue then .ok (greatest + 1) else .error (.database .full)

/-- Insert a stream: names are unique. -/
def addStream (t : Tables) (descriptor : StreamDescriptor) (nonce digest : Bytes) :
    Except StoreError (StreamId × Tables) := do
  if t.streams.any fun s => s.descriptor.name == descriptor.name then
    throw (.duplicateStream descriptor.name)
  let id ← nextId (t.streams.map fun s => s.id.number)
  return (⟨id⟩, { t with streams := t.streams ++ [⟨⟨id⟩, descriptor, nonce, digest⟩] })

/-- Insert a record: its stream must exist. -/
def addRecord (t : Tables) (stream : StreamId) (timestamp : Int64) (payload digest : Bytes) :
    Except StoreError (Int64 × Tables) := do
  unless t.streams.any fun s => s.id == stream do
    throw (.missingStream stream)
  let id ← nextId (t.records.map RecordRow.id)
  return (id, { t with records := t.records ++ [⟨id, stream, timestamp, payload, digest⟩] })

/-- Each record with its stream. -/
def joined (t : Tables) : List (RecordRow × StreamRow) :=
  Query.join (fun r s => r.stream == s.id) t.records t.streams

/-- The greatest limit that a query takes. -/
def maxLimit : Nat := Int64.maxValue.toInt.toNat

/-- The first records behind a place, in the order of places. -/
def page (t : Tables) (after : ReadPosition) (limit : Nat) : List StoredMessage :=
  let behind := t.joined.filter fun p => after.before ⟨p.1.timestamp, p.1.id⟩
  let messages : List StoredMessage := behind.map fun p =>
    ⟨p.1.id, p.2.descriptor.name, p.1.timestamp, p.1.payload⟩
  (messages.mergeSort fun a b => a.position.upTo b.position).take (min limit maxLimit)

/-- The descriptors in the order of creation. -/
def streamList (t : Tables) : List StreamDescriptor := t.streams.map StreamRow.descriptor

/-- The statistics of one group of joined rows. -/
def groupStatistics? (group : List (RecordRow × StreamRow)) : Option StreamStatistics :=
  group.head?.bind fun p =>
    StreamStatistics.ofTimes? p.2.descriptor (group.map fun q => q.1.timestamp)

/-- The statistics of the streams with records, in the order of creation. -/
def statistics (t : Tables) : List StreamStatistics :=
  (Query.groupBy (fun p : RecordRow × StreamRow => p.2.id.number) t.joined).filterMap
    fun group => groupStatistics? group.2

/-- A row of streams as an anchor. -/
def anchor (s : StreamRow) : Except StoreError StreamAnchor :=
  match Nonce.ofBytes? s.nonce, Digest.ofBytes? s.digest with
  | none, _ => .error (.database (.blobSize 4))
  | some _, none => .error (.database (.blobSize 5))
  | some nonce, some digest => .ok ⟨s.id, s.descriptor, nonce, digest⟩

/-- The streams as they were created, in that order. -/
def anchorList (t : Tables) : Except StoreError (List StreamAnchor) := t.streams.mapM anchor

/-- A row of records as a record. -/
def record (r : RecordRow) : Except StoreError Record :=
  match Digest.ofBytes? r.digest with
  | none => .error (.database (.blobSize 2))
  | some digest => .ok ⟨r.timestamp, r.stream, r.payload, digest⟩

/-- The records of a stream in the order of their numbers. -/
def chain (t : Tables) (id : StreamId) : Except StoreError (List Record) :=
  (t.records.filter fun r => r.stream == id).mapM record

end Tables

/-- The supported version of the schema. -/
def schemaVersion : Int64 := 1

namespace Database

/-- The greatest recorded version, zero when none is recorded. It must fit 32 bits. -/
def version (d : Database) : Except StoreError Int64 :=
  match d.versions with
  | none => .error (.database .statement)
  | some versions =>
    let greatest := versions.max?.getD 0
    if 0 ≤ greatest ∧ greatest < 4294967296 then .ok greatest
    else .error (.database (.versionRange greatest))

/-- The database with a table of versions. -/
def withVersions (d : Database) : Database := { d with versions := some (d.versions.getD []) }

/-- Create the tables of streams and records and record the version, all or nothing. -/
def createTables (d : Database) : Except StoreError Database :=
  match d.tables, d.versions with
  | none, some versions =>
    .ok { d with tables := some {}, versions := some (versions ++ [schemaVersion]) }
  | _, _ => .error (.database .statement)

/-- Whether a database with a table of versions needs its tables created: no version is recorded
yet. Versions above the supported one are refused. -/
def needsTables (d : Database) : Except StoreError Bool := do
  let current ← d.version
  if schemaVersion < current then
    throw (.migration ("database schema version " ++ toString current.toInt ++
      " is newer than supported version " ++ toString schemaVersion.toInt))
  return current < schemaVersion

/-- Bring the schema to the supported version. -/
def migrate (d : Database) : Database × Except StoreError Unit :=
  let d := d.withVersions
  match d.needsTables with
  | .error e => (d, .error e)
  | .ok false => (d, .ok ())
  | .ok true =>
    match d.createTables with
    | .error e => (d, .error e)
    | .ok migrated => (migrated, .ok ())

/-- The tables of streams and records; statements fail without them. -/
def requireTables (d : Database) : Except StoreError Tables :=
  match d.tables with
  | some t => .ok t
  | none => .error (.database .statement)

/-- How many pages a database has that holds few rows: one for its catalogue and one for each table
and index. Rows take further pages as they become many; those are not counted. -/
def pages (d : Database) : Nat :=
  1 + (if d.versions.isSome then 1 else 0) + (if d.tables.isSome then 5 else 0) +
    if d.unrelated then 1 else 0

/-- What a database takes in its file, as long as its rows take no further pages. -/
def size (d : Database) : UInt64 := UInt64.ofNat (4096 * d.pages)

/-- The names of the tables. -/
def tableNames (d : Database) : List String :=
  (if d.unrelated then ["plain"] else []) ++ (if d.tables.isSome then ["records"] else []) ++
    (if d.versions.isSome then ["schema_migrations"] else []) ++
    (if d.tables.isSome then ["streams"] else [])

/-- A change of one field of a row. -/
inductive Setting
  | recordPayload (value : Bytes)
  | recordDigest (value : Bytes)
  | recordTimestamp (value : Int64)
  | recordStream (value : StreamId)
  | streamNonce (value : Bytes)
  | streamDigest (value : Bytes)
  | streamName (value : String)
  | streamType (value : String)
  | streamFormat (value : String)

/-- A change that others make to a database. -/
inductive Edit
  /-- Create a table of no concern to the store. -/
  | addTable
  | addVersion (version : Int64)
  | removeVersion (version : Int64)
  | removeRecord (id : Int64)
  /-- Change a field of the row with this number. -/
  | set (id : Int64) (setting : Setting)

/-- Change the row of records with this number. -/
def setRecord (t : Tables) (id : Int64) (change : RecordRow → RecordRow) : Tables × Nat :=
  ({ t with records := t.records.map fun r => if r.id = id then change r else r },
    (t.records.filter fun r => r.id == id).length)

/-- Change the row of streams with this number. -/
def setStream (t : Tables) (id : Int64) (change : StreamRow → StreamRow) : Tables × Nat :=
  ({ t with streams := t.streams.map fun s => if s.id.number = id then change s else s },
    (t.streams.filter fun s => s.id.number == id).length)

/-- Change a field of a row: the tables after it and the count of changed rows. A record must stay
with a stream that exists, and names must stay unique. -/
def applySetting (t : Tables) (id : Int64) : Setting → Option (Tables × Nat)
  | .recordPayload value => some (setRecord t id fun r => { r with payload := value })
  | .recordDigest value => some (setRecord t id fun r => { r with digest := value })
  | .recordTimestamp value => some (setRecord t id fun r => { r with timestamp := value })
  | .recordStream value =>
    if (t.records.any fun r => r.id == id) && !(t.streams.any fun s => s.id == value) then none
    else some (setRecord t id fun r => { r with stream := value })
  | .streamNonce value => some (setStream t id fun s => { s with nonce := value })
  | .streamDigest value => some (setStream t id fun s => { s with digest := value })
  | .streamName value =>
    if (t.streams.any fun s => s.id.number == id) &&
        t.streams.any fun s => s.id.number != id && s.descriptor.name == value then none
    else some (setStream t id fun s => { s with descriptor := { s.descriptor with name := value } })
  | .streamType value =>
    some (setStream t id fun s => { s with descriptor := { s.descriptor with typeName := value } })
  | .streamFormat value =>
    some (setStream t id fun s => { s with descriptor := { s.descriptor with format := value } })

/-- Make a change: the database after it and the count of changed rows, unless it is refused. -/
def edit (d : Database) : Edit → Option (Database × Nat)
  | .addTable => if d.unrelated then none else some ({ d with unrelated := true }, 0)
  | .addVersion version =>
    match d.versions with
    | none => none
    | some versions =>
      if versions.contains version then none
      else some ({ d with versions := some (versions ++ [version]) }, 1)
  | .removeVersion version =>
    match d.versions with
    | none => none
    | some versions =>
      some ({ d with versions := some (versions.filter (· != version)) },
        (versions.filter (· == version)).length)
  | .removeRecord id =>
    match d.tables with
    | none => none
    | some t =>
      some ({ d with tables := some { t with records := t.records.filter fun r => r.id != id } },
        (t.records.filter fun r => r.id == id).length)
  | .set id setting =>
    match d.tables with
    | none => none
    | some t =>
      match applySetting t id setting with
      | none => none
      | some (t, rows) => some ({ d with tables := some t }, rows)

end Database

end SealedLog

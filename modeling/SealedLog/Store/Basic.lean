import SealedLog.Files.Error
import SealedLog.Json.Records

/-!
# What stores hold and answer

* `AccessMode`: reading alone, or reading and writing;
* `ReadPosition`: a place in the order of all records, by time and then by record number;
* `StoredMessage`, `StreamAnchor`, `StreamStatistics`: the answers of a store;
* `StoreError`: why a store refuses, and `StoreError.message`;
* `StoreMethod`: the operations of a store; `FaultPlan`: which of them fail.
-/

namespace SealedLog

/-- Whether a store is opened for reading alone. -/
inductive AccessMode
  | readOnly
  | readWrite
  deriving DecidableEq, Repr

/-- Whether nothing may be written. -/
def AccessMode.isReadOnly : AccessMode → Bool
  | .readOnly => true
  | .readWrite => false

instance : JsonForm AccessMode where
  toJson
    | .readOnly => .ofText "ReadOnly"
    | .readWrite => .ofText "ReadWrite"
  ofJson? v :=
    match v.caseName? with
    | some "ReadOnly" => some .readOnly
    | some "ReadWrite" => some .readWrite
    | _ => none

/-- A place in the order of all records: first by time, then by record number. -/
structure ReadPosition where
  timestamp : Int64
  id : Int64
  deriving DecidableEq

namespace ReadPosition

/-- The place before every record, since record numbers count from one. -/
def start : ReadPosition := ⟨Int64.minValue, 0⟩

/-- Whether one place is before another. -/
def before (a b : ReadPosition) : Bool :=
  decide (a.timestamp < b.timestamp) || (a.timestamp == b.timestamp && decide (a.id < b.id))

/-- Whether one place is before another or the same. -/
def upTo (a b : ReadPosition) : Bool := !b.before a

end ReadPosition

/-- A record with its number and the name of its stream. -/
structure StoredMessage where
  id : Int64
  message : Message
  deriving DecidableEq

/-- The place of a record. -/
def StoredMessage.position (m : StoredMessage) : ReadPosition := ⟨m.message.timestamp, m.id⟩

/-- A stream as it was created. -/
structure StreamAnchor where
  id : StreamId
  descriptor : StreamDescriptor
  nonce : Nonce
  digest : Digest
  deriving DecidableEq

/-- How many records a stream has, and the range of their times. -/
structure StreamStatistics where
  descriptor : StreamDescriptor
  count : UInt64
  minTimestamp : Int64
  maxTimestamp : Int64
  deriving DecidableEq

instance : JsonForm StreamStatistics where
  toJson s := .ofMembers
    [("descriptor", toJson s.descriptor), ("count", toJson s.count),
      ("min_timestamp", toJson s.minTimestamp), ("max_timestamp", toJson s.maxTimestamp)]
  ofJson? v := do
    match ← v.fields? ["descriptor", "count", "min_timestamp", "max_timestamp"] with
    | [descriptor, count, low, high] =>
      return ⟨← ofJson? descriptor, ← ofJson? count, ← ofJson? low, ← ofJson? high⟩
    | _ => none

/-- The statistics of a stream from the times of its records, unless it has none. -/
def StreamStatistics.ofTimes? (descriptor : StreamDescriptor) (times : List Int64) :
    Option StreamStatistics :=
  match times.min?, times.max? with
  | some low, some high => some ⟨descriptor, UInt64.ofNat times.length, low, high⟩
  | _, _ => none

/-- What goes wrong inside a database. -/
inductive DatabaseFault
  /-- A statement is refused: a missing table, a broken or unreachable file. -/
  | statement
  /-- No row number is left. -/
  | full
  /-- An octet string in this column of an answer should have had 32 octets. -/
  | blobSize (column : Nat)
  /-- A schema version does not fit its type. -/
  | versionRange (version : Int64)
  deriving DecidableEq, Repr

/-- The wording of a database fault. -/
def DatabaseFault.message : DatabaseFault → String
  | .statement => "database error"
  | .full => "database error"
  | .blobSize column =>
    "database error: Conversion error from type Blob at index: " ++ toString column ++ ", " ++
      wrongSizeMessage
  | .versionRange version =>
    "database error: Integer " ++ toString version.toInt ++ " out of range at index 0"

/-- Why a store refuses. -/
inductive StoreError
  | database (fault : DatabaseFault)
  | duplicateStream (name : String)
  | missingStream (id : StreamId)
  | readOnly
  | invalidData (what : String)
  | migration (what : String)
  | file (error : FileError)
  deriving DecidableEq

/-- The wording of a store error. -/
def StoreError.message : StoreError → String
  | .database fault => fault.message
  | .duplicateStream name => "stream '" ++ name ++ "' already exists"
  | .missingStream id => "stream id " ++ id.text ++ " does not exist"
  | .readOnly => "store is read-only"
  | .invalidData what => "invalid data: " ++ what
  | .migration what => "migration error: " ++ what
  | .file error => "I/O error: " ++ error.message

/-- The operations of a store. -/
inductive StoreMethod
  | createSchema
  | prepare
  | insertStream
  | insertRecord
  | page
  | streams
  | statistics
  | size
  | anchors
  | chain
  deriving DecidableEq, Repr

namespace StoreMethod

/-- What an operation is called in messages. -/
def label : StoreMethod → String
  | .createSchema => "create_schema"
  | .prepare => "prepare"
  | .insertStream => "insert_stream"
  | .insertRecord => "insert_record"
  | .page => "page"
  | .streams => "streams"
  | .statistics => "stats"
  | .size => "size"
  | .anchors => "anchors"
  | .chain => "chain"

/-- All operations. -/
def all : List StoreMethod :=
  [.createSchema, .prepare, .insertStream, .insertRecord, .page, .streams, .statistics, .size,
    .anchors, .chain]

end StoreMethod

/-- Which operations fail, and how. -/
abbrev FaultPlan := StoreMethod → Option StoreError

namespace FaultPlan

/-- No operation fails. -/
def none : FaultPlan := fun _ => Option.none

/-- The error of an operation that was made to fail. -/
def injected (label : String) : StoreError := .invalidData ("injected " ++ label)

/-- These operations fail. -/
def ofMethods (methods : List StoreMethod) : FaultPlan := fun method =>
  if method ∈ methods then some (injected method.label) else Option.none

end FaultPlan

end SealedLog

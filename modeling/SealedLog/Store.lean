import SealedLog.Store.Connection
import SealedLog.Store.Memory

/-!
# Stores

A store is held in memory or in a database file, and behaves alike. Any of its operations may be
made to fail: it then answers its error and leaves the store as it is.

* `Engine`, `Store`;
* `Store.createSchema`, `prepare`, `insertStream`, `insertRecord`: the changes;
* `Store.page`, `streams`, `statistics`, `size`, `anchors`, `chain`: the answers;
* `Store.visit`: what giving an answer leaves of the store.
-/

namespace SealedLog

/-- Where a store keeps its rows. -/
inductive Engine
  | memory (m : MemoryStore)
  | connection (c : Connection)

/-- A store. -/
structure Store where
  engine : Engine
  /-- The operations that fail. -/
  faults : FaultPlan := FaultPlan.none

namespace Store

/-- An empty store in memory, before its schema is created. -/
def inMemory : Store := { engine := .memory {} }

/-- An empty store in a database of its own, with its schema. -/
def inDatabase : Store := { engine := .connection Connection.inMemory.createSchema.1 }

instance : Inhabited Store := ⟨inMemory⟩

/-- Answer unless the operation is made to fail. -/
def guarded {α : Type} (s : Store) (method : StoreMethod) (answer : Except StoreError α) :
    Except StoreError α :=
  match s.faults method with
  | some e => .error e
  | none => answer

/-- Carry out a change, unless it is made to fail. -/
def change {α : Type} (s : Store) (method : StoreMethod)
    (inMemory : MemoryStore → Except StoreError (α × MemoryStore))
    (connected : Connection → Connection × Except StoreError α) : Store × Except StoreError α :=
  match s.faults method with
  | some e => (s, .error e)
  | none =>
    match s.engine with
    | .memory m =>
      match inMemory m with
      | .error e => (s, .error e)
      | .ok (answer, m) => ({ s with engine := .memory m }, .ok answer)
    | .connection c =>
      let (c, answer) := connected c
      ({ s with engine := .connection c }, answer)

/-- Bring the schema to the supported version. -/
def createSchema (s : Store) : Store × Except StoreError Unit :=
  s.change .createSchema (fun m => .ok ((), m.createSchema)) Connection.createSchema

/-- Make ready for records. -/
def prepare (s : Store) : Store × Except StoreError Unit :=
  s.change .prepare (fun m => .ok ((), m)) Connection.prepare

/-- Add a stream; its number is answered. -/
def insertStream (s : Store) (descriptor : StreamDescriptor) (nonce : Nonce) (digest : Digest) :
    Store × Except StoreError StreamId :=
  s.change .insertStream (fun m => m.insertStream descriptor nonce digest)
    fun c => c.insertStream descriptor nonce digest

/-- Add a record. -/
def insertRecord (s : Store) (stream : StreamId) (timestamp : Int64) (payload : Bytes)
    (digest : Digest) : Store × Except StoreError Unit :=
  s.change .insertRecord
    (fun m => (m.insertRecord stream timestamp payload digest).map fun m => ((), m))
    fun c => c.insertRecord stream timestamp payload digest

/-- The store once an operation that only reads has looked at the file. -/
def visit (s : Store) (method : StoreMethod) : Store :=
  match s.faults method, s.engine with
  | none, .connection c => { s with engine := .connection c.visit }
  | _, _ => s

/-- Make a change of a database that is none of the store's; others do not take it. -/
def edit (s : Store) (edit : Database.Edit) : Store × Option Nat :=
  match s.engine with
  | .memory _ => (s, none)
  | .connection c =>
    let (c, rows) := c.edit edit
    ({ s with engine := .connection c }, rows)

/-- The number given out last, to a stream, a record or a version of the schema. -/
def lastId (s : Store) : Int64 :=
  match s.engine with
  | .memory m => m.lastId
  | .connection c => c.lastId

/-- The first records behind a place, in the order of places. -/
def page (s : Store) (after : ReadPosition) (limit : Nat) :
    Except StoreError (List StoredMessage) :=
  s.guarded .page <|
    match s.engine with
    | .memory m => m.page after limit
    | .connection c => c.query.map fun t => t.page after limit

/-- The descriptors in the order of creation. -/
def streams (s : Store) : Except StoreError (List StreamDescriptor) :=
  s.guarded .streams <|
    match s.engine with
    | .memory m => m.streamList
    | .connection c => c.query.map Tables.streamList

/-- The statistics of the streams with records, in the order of creation. -/
def statistics (s : Store) : Except StoreError (List StreamStatistics) :=
  s.guarded .statistics <|
    match s.engine with
    | .memory m => m.statistics
    | .connection c => c.query.map Tables.statistics

/-- What the store takes. -/
def size (s : Store) : Except StoreError UInt64 :=
  s.guarded .size <|
    match s.engine with
    | .memory m => .ok m.size
    | .connection c => c.size

/-- The streams as they were created, in that order. -/
def anchors (s : Store) : Except StoreError (List StreamAnchor) :=
  s.guarded .anchors <|
    match s.engine with
    | .memory m => m.anchorList
    | .connection c => c.query.bind Tables.anchorList

/-- The records of a stream in the order of their numbers. -/
def chain (s : Store) (id : StreamId) : Except StoreError (List Record) :=
  s.guarded .chain <|
    match s.engine with
    | .memory m => m.chain id
    | .connection c => c.query.bind fun t => t.chain id

/-- What the file of a store leads to, if it has one. -/
def content? (s : Store) : Option Content :=
  match s.engine with
  | .memory _ => none
  | .connection c => some c.settle.content

/-- How many records the store has. -/
def recordCount (s : Store) : Nat :=
  match s.engine with
  | .memory m => m.records.length
  | .connection c => (c.query.map fun t => t.records.length).toOption.getD 0

/-- Whether the store is held in memory, so that its size is exact. -/
def isInMemory (s : Store) : Bool :=
  match s.engine with
  | .memory _ => true
  | .connection _ => false

end Store

end SealedLog

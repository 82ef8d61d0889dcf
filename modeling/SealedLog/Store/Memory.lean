import SealedLog.Store.Basic

/-!
# Stores in memory

A store that keeps its streams in the order of their creation and its records in the order of
their numbers. Streams are numbered by their place, and a record gets the number after the
greatest one. Nothing is answered or stored before the schema has been created.

* `MemoryStore`;
* `MemoryStore.createSchema`, `insertStream`, `insertRecord`, `replaceDigest`: the changes;
* `MemoryStore.page`, `streamList`, `statistics`, `size`, `anchorList`, `chain`: the answers.
-/

namespace SealedLog

/-- A store in memory. -/
structure MemoryStore where
  anchors : List StreamAnchor := []
  /-- The records under their numbers, in ascending order. -/
  records : List (Int64 × Record) := []
  hasSchema : Bool := false
  /-- The number given out last, to a stream or a record. -/
  lastId : Int64 := 0

namespace MemoryStore

/-- What a row takes beside its payload. -/
def rowOverhead : Nat := 64

/-- Refuse before the schema has been created. -/
def requireSchema (m : MemoryStore) : Except StoreError Unit :=
  if m.hasSchema then .ok () else .error (.invalidData "schema has not been created")

/-- The name of the stream with this number. -/
def streamName? (m : MemoryStore) (id : StreamId) : Option String :=
  (m.anchors.find? fun a => a.id == id).map fun a => a.descriptor.name

/-- Make the store ready for use. -/
def createSchema (m : MemoryStore) : MemoryStore := { m with hasSchema := true }

/-- The number of the next stream, as long as numbers are left. -/
def nextStreamId (m : MemoryStore) : Except StoreError StreamId :=
  if m.anchors.length < Int64.maxValue.toInt.toNat then
    .ok ⟨Int64.ofNat (m.anchors.length + 1)⟩
  else .error (.database .full)

/-- Add a stream, unless one of its name exists. -/
def insertStream (m : MemoryStore) (descriptor : StreamDescriptor) (nonce : Nonce)
    (digest : Digest) : Except StoreError (StreamId × MemoryStore) := do
  m.requireSchema
  if m.anchors.any fun a => a.descriptor.name == descriptor.name then
    throw (.duplicateStream descriptor.name)
  let id ← m.nextStreamId
  return (id, { m with anchors := m.anchors ++ [⟨id, descriptor, nonce, digest⟩],
                       lastId := id.number })

/-- The number of the next record, as long as numbers are left. -/
def nextRecordId (m : MemoryStore) : Except StoreError Int64 :=
  let greatest := (m.records.getLast?.map Prod.fst).getD 0
  if greatest < Int64.maxValue then .ok (greatest + 1) else .error (.database .full)

/-- Add a record to a stream that exists. -/
def insertRecord (m : MemoryStore) (stream : StreamId) (timestamp : Int64) (payload : Bytes)
    (digest : Digest) : Except StoreError MemoryStore := do
  m.requireSchema
  if (m.streamName? stream).isNone then
    throw (.missingStream stream)
  let id ← m.nextRecordId
  return { m with records := m.records ++ [(id, ⟨timestamp, stream, payload, digest⟩)],
                  lastId := id }

/-- Replace the digest of a record; false when there is no record of this number. -/
def replaceDigest (m : MemoryStore) (id : Int64) (digest : Digest) : MemoryStore × Bool :=
  ({ m with records := m.records.map fun r =>
      if r.1 = id then (r.1, { r.2 with digest := digest }) else r },
    m.records.any fun r => r.1 == id)

/-- A numbered record under the name of its stream, if the stream exists. -/
def message? (m : MemoryStore) (r : Int64 × Record) : Option StoredMessage :=
  (m.streamName? r.2.stream).map fun name => ⟨r.1, name, r.2.timestamp, r.2.payload⟩

/-- The first records behind a place, in the order of places. -/
def page (m : MemoryStore) (after : ReadPosition) (limit : Nat) :
    Except StoreError (List StoredMessage) := do
  m.requireSchema
  let behind := m.records.filter fun r => after.before ⟨r.2.timestamp, r.1⟩
  let sorted := (behind.filterMap m.message?).mergeSort fun a b => a.position.upTo b.position
  return sorted.take limit

/-- The descriptors in the order of creation. -/
def streamList (m : MemoryStore) : Except StoreError (List StreamDescriptor) := do
  m.requireSchema
  return m.anchors.map StreamAnchor.descriptor

/-- The times of the records of a stream. -/
def timesOf (m : MemoryStore) (id : StreamId) : List Int64 :=
  (m.records.filter fun r => r.2.stream == id).map fun r => r.2.timestamp

/-- The statistics of the streams with records, in the order of creation. -/
def statistics (m : MemoryStore) : Except StoreError (List StreamStatistics) := do
  m.requireSchema
  return m.anchors.filterMap fun a => StreamStatistics.ofTimes? a.descriptor (m.timesOf a.id)

/-- The octets of all payloads and the overhead of all rows. -/
def size (m : MemoryStore) : UInt64 :=
  UInt64.ofNat (m.records.foldl (fun n r => n + (r.2.payload.length + rowOverhead))
    (m.anchors.length * rowOverhead))

/-- The streams as they were created, in that order. -/
def anchorList (m : MemoryStore) : Except StoreError (List StreamAnchor) := do
  m.requireSchema
  return m.anchors

/-- The records of a stream in the order of their numbers. -/
def chain (m : MemoryStore) (id : StreamId) : Except StoreError (List Record) := do
  m.requireSchema
  return (m.records.map Prod.snd).filter fun r => r.stream == id

end MemoryStore

end SealedLog

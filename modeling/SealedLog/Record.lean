import SealedLog.Stream

/-!
# Records

* `Message`: a record as a caller gives and gets it, under the name of its stream;
* `Link`: the part of a record that its digest covers, under the number of its stream;
* `Record`: a link with its digest, as a store holds it;
* `Link.validate`, `Link.canonical`: the check and the octets that the digest is taken over.
-/

namespace SealedLog

/-- A record under the name of its stream. -/
structure Message where
  stream : String
  timestamp : Int64
  payload : Bytes
  deriving DecidableEq

/-- The part of a record that its digest covers. -/
structure Link where
  timestamp : Int64
  stream : StreamId
  payload : Bytes
  deriving DecidableEq

/-- A record with its digest. -/
structure Record where
  timestamp : Int64
  stream : StreamId
  payload : Bytes
  digest : Digest
  deriving DecidableEq

/-- The link that a message becomes in the stream with this number. -/
def Message.link (message : Message) (id : StreamId) : Link :=
  ⟨message.timestamp, id, message.payload⟩

/-- The link of a stored record. -/
def Record.link (record : Record) : Link := ⟨record.timestamp, record.stream, record.payload⟩

namespace Link

/-- A link belongs to a stream that was created. -/
def validate (link : Link) : Except InputError Unit :=
  if link.stream.isAssigned then .ok () else .error (.unassignedStream link.stream)

/-- A link as a map of its three fields under the keys 0, 1 and 2. -/
def toCbor (link : Link) : Cbor.Value :=
  .map [(.integer (.ofUInt64 0), .integer (.ofInt64 link.timestamp)),
    (.integer (.ofUInt64 1), .integer (.ofInt64 link.stream.number)),
    (.integer (.ofUInt64 2), .bytes link.payload)]

/-- The canonical octets of a link. -/
def canonical (link : Link) : Except InputError Bytes := link.toCbor.encode.mapError .encoding

end Link

end SealedLog

import SealedLog.Digest
import SealedLog.Cbor.Value

/-!
# Streams

A stream is a named sequence of records of one type. Its descriptor is fixed when the stream is
created; its state is the digest at the end of its chain.

* `StreamId`, `StreamDescriptor`, `StreamState`;
* `InputError`: what is wrong with a descriptor or a record, with its wording;
* `StreamDescriptor.validate`: each field is a non-empty text without NUL;
* `StreamDescriptor.canonical`: the octets that digests of a descriptor are taken over.
-/

namespace SealedLog

/-- The number of a stream in its store. Streams that were created count from one. -/
structure StreamId where
  number : Int64
  deriving DecidableEq

namespace StreamId

/-- Whether a store gives out this number. -/
def isAssigned (id : StreamId) : Bool := decide (1 ≤ id.number)

/-- Whether one number is below, equal to or above another. -/
def order (a b : StreamId) : Ordering := compareOfLessAndEq a.number b.number

/-- The number in decimal digits. -/
def text (id : StreamId) : String := toString id.number.toInt

/-- A short form for people. -/
def summary (id : StreamId) : String := "StreamId(" ++ id.text ++ ")"

end StreamId

/-- What a stream is: its name, the type of its records, and how they are serialized. -/
structure StreamDescriptor where
  name : String
  typeName : String
  format : String
  deriving DecidableEq

/-- The fields of a descriptor. -/
inductive Field
  | name
  | type
  | format
  deriving DecidableEq, Repr

/-- What a field is called in messages. -/
def Field.label : Field → String
  | .name => "name"
  | .type => "type"
  | .format => "serialization format"

/-- What is wrong with a descriptor or a record. -/
inductive InputError
  /-- The field is the empty text. -/
  | emptyField (field : Field)
  /-- The field contains the character NUL. -/
  | nulInField (field : Field)
  /-- The record names a stream that no store created. -/
  | unassignedStream (id : StreamId)
  /-- The value has no canonical encoding. -/
  | encoding (reason : Cbor.EncodeError)
  deriving DecidableEq

/-- The wording of an input error. -/
def InputError.message : InputError → String
  | .emptyField field => "invalid input: stream " ++ field.label ++ " must not be empty"
  | .nulInField field => "invalid input: stream " ++ field.label ++ " contains a NUL character"
  | .unassignedStream id => "invalid input: record references unassigned stream id " ++ id.text
  | .encoding reason => "encoding error: " ++ reason.message

/-- Check one field of a descriptor. -/
def Field.check (field : Field) (text : String) : Except InputError Unit :=
  if text.toList = [] then .error (.emptyField field)
  else if Char.ofNat 0 ∈ text.toList then .error (.nulInField field)
  else .ok ()

namespace StreamDescriptor

/-- Check the fields in order; the first that fails decides. -/
def validate (descriptor : StreamDescriptor) : Except InputError Unit := do
  Field.name.check descriptor.name
  Field.type.check descriptor.typeName
  Field.format.check descriptor.format

/-- A descriptor as a map of its three fields under the keys 0, 1 and 2. -/
def toCbor (descriptor : StreamDescriptor) : Cbor.Value :=
  .map [(.integer (.ofUInt64 0), .text descriptor.name),
    (.integer (.ofUInt64 1), .text descriptor.typeName),
    (.integer (.ofUInt64 2), .text descriptor.format)]

/-- The canonical octets of a descriptor. -/
def canonical (descriptor : StreamDescriptor) : Except InputError Bytes :=
  descriptor.toCbor.encode.mapError .encoding

end StreamDescriptor

/-- Where the chain of a stream stands. -/
structure StreamState where
  id : StreamId
  /-- The digest of the last record, or of the stream when it has none. -/
  tip : Digest
  /-- The digest of the stream, which stays. -/
  nonce : Nonce
  deriving DecidableEq

namespace StreamState

/-- The state of a stream without records. -/
def start (id : StreamId) (digest : Digest) : StreamState := ⟨id, digest, digest.toNonce⟩

/-- The state after one more record. -/
def advance (state : StreamState) (digest : Digest) : StreamState := { state with tip := digest }

end StreamState

end SealedLog

import SealedLog.Json.Records

/-!
# Ledger events

What is told to the ledger outside: a stream was created, or a record was written.

* `Announcement`, `Checkpoint`, `LedgerEvent`;
* `LedgerEvent.digest`, `LedgerEvent.stream`;
* their JSON forms.
-/

namespace SealedLog

/-- A stream was created. -/
structure Announcement where
  digest : Digest
  descriptor : StreamDescriptor
  deriving DecidableEq

/-- A record was written. -/
structure Checkpoint where
  digest : Digest
  /-- The digest of the record's stream, as a nonce. -/
  nonce : Nonce
  message : Message
  deriving DecidableEq

/-- What is told to the ledger. -/
inductive LedgerEvent
  | streamCreated (announcement : Announcement)
  | checkpoint (checkpoint : Checkpoint)
  deriving DecidableEq

namespace LedgerEvent

/-- The digest that an event is about. -/
def digest : LedgerEvent → Digest
  | .streamCreated a => a.digest
  | .checkpoint c => c.digest

/-- The name of the stream that an event is about. -/
def stream : LedgerEvent → String
  | .streamCreated a => a.descriptor.name
  | .checkpoint c => c.message.stream

/-- Whether an event is about a record. -/
def isCheckpoint : LedgerEvent → Bool
  | .streamCreated _ => false
  | .checkpoint _ => true

end LedgerEvent

instance : JsonForm Announcement where
  toJson a := .ofMembers [("digest", toJson a.digest), ("descriptor", toJson a.descriptor)]
  ofJson? v := do
    match ← v.fields? ["digest", "descriptor"] with
    | [digest, descriptor] => return ⟨← ofJson? digest, ← ofJson? descriptor⟩
    | _ => none

instance : JsonForm Checkpoint where
  toJson c := .ofMembers
    [("digest", toJson c.digest), ("nonce", toJson c.nonce), ("record", toJson c.message)]
  ofJson? v := do
    match ← v.fields? ["digest", "nonce", "record"] with
    | [digest, nonce, message] => return ⟨← ofJson? digest, ← ofJson? nonce, ← ofJson? message⟩
    | _ => none

/-- An event is an object whose only key says what it is. -/
instance : JsonForm LedgerEvent where
  toJson
    | .streamCreated a => .ofMembers [("StreamCreated", toJson a)]
    | .checkpoint c => .ofMembers [("Checkpoint", toJson c)]
  ofJson?
    | .object [(key, v)] =>
      match key.text? with
      | some "StreamCreated" => (ofJson? v).map .streamCreated
      | some "Checkpoint" => (ofJson? v).map .checkpoint
      | _ => none
    | _ => none

end SealedLog

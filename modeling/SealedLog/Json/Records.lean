import SealedLog.Json.Form
import SealedLog.Record

/-!
# JSON forms of streams and records

Digests and nonces are arrays of 32 numbers, a stream number is a number, and descriptors, states,
messages and records are objects of their fields.
-/

namespace SealedLog

instance : JsonForm Digest where
  toJson digest := toJson digest.bytes
  ofJson? v := (v.listOf?).bind Digest.ofBytes?

instance : JsonForm Nonce where
  toJson nonce := toJson nonce.bytes
  ofJson? v := (v.listOf?).bind Nonce.ofBytes?

instance : JsonForm StreamId where
  toJson id := toJson id.number
  ofJson? v := (ofJson? v).map StreamId.mk

instance : JsonForm StreamDescriptor where
  toJson d := .ofMembers
    [("name", toJson d.name), ("type_name", toJson d.typeName),
      ("serialization_format", toJson d.format)]
  ofJson? v := do
    match ← v.fields? ["name", "type_name", "serialization_format"] with
    | [name, typeName, format] => return ⟨← ofJson? name, ← ofJson? typeName, ← ofJson? format⟩
    | _ => none

instance : JsonForm StreamState where
  toJson s := .ofMembers
    [("id", toJson s.id), ("current_digest", toJson s.tip), ("current_nonce", toJson s.nonce)]
  ofJson? v := do
    match ← v.fields? ["id", "current_digest", "current_nonce"] with
    | [id, tip, nonce] => return ⟨← ofJson? id, ← ofJson? tip, ← ofJson? nonce⟩
    | _ => none

instance : JsonForm Message where
  toJson m := .ofMembers
    [("stream_name", toJson m.stream), ("timestamp", toJson m.timestamp),
      ("payload", toJson m.payload)]
  ofJson? v := do
    match ← v.fields? ["stream_name", "timestamp", "payload"] with
    | [stream, timestamp, payload] =>
      return ⟨← ofJson? stream, ← ofJson? timestamp, ← payload.payload?⟩
    | _ => none

instance : JsonForm Record where
  toJson r := .ofMembers
    [("timestamp", toJson r.timestamp), ("stream_id", toJson r.stream),
      ("payload", toJson r.payload), ("digest", toJson r.digest)]
  ofJson? v := do
    match ← v.fields? ["timestamp", "stream_id", "payload", "digest"] with
    | [timestamp, stream, payload, digest] =>
      return ⟨← ofJson? timestamp, ← ofJson? stream, ← payload.payload?, ← ofJson? digest⟩
    | _ => none

end SealedLog

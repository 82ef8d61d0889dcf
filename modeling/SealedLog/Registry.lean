import SealedLog.Chain
import SealedLog.Session.Error
import SealedLog.Store

/-!
# Registries

A registry knows the streams that a session has created, with the tips of their chains, and the
nonce that anchors the next one.

* `StreamRegistry`; `RemovalPolicy`: what is said about removing a stream;
* `StreamRegistry.create`: create a stream in a store, unless the name is registered;
* `StreamRegistry.lookup`, `advance`, `clear`, `remove`.

Streams are never removed: a policy only gives the reason why not.
-/

namespace SealedLog

/-- The answer to a wish to remove a stream. -/
inductive RemovalDecision
  | retained (reason : String)
  deriving DecidableEq

/-- What is said about removing a stream, from its descriptor and its state if it is registered. -/
abbrev RemovalPolicy := StreamDescriptor → Option StreamState → RemovalDecision

/-- Registered streams stay because later streams are anchored to them. -/
def RemovalPolicy.immutableChain : RemovalPolicy := fun descriptor state =>
  match state with
  | some _ =>
    .retained ("stream '" ++ descriptor.name ++
      "' is anchored in the session chain and cannot be removed")
  | none => .retained ("stream '" ++ descriptor.name ++ "' is not registered")

/-- Repeat the name of the stream and its number, or -1 if it is not registered. -/
def RemovalPolicy.echo : RemovalPolicy := fun descriptor state =>
  .retained ("echo " ++ descriptor.name ++ " " ++
    ((state.map fun s => s.id.text).getD "-1"))

/-- The streams of a session. -/
structure StreamRegistry where
  /-- The nonce that the next stream is anchored to. -/
  nonce : Nonce
  /-- The registered names with their states, in the order of creation. -/
  streams : List (String × StreamState) := []
  policy : RemovalPolicy := RemovalPolicy.immutableChain

/-- What came of a wish to create a stream. -/
inductive Registration
  | created (id : StreamId) (digest : Digest)
  | existing (id : StreamId)
  deriving DecidableEq

/-- The number of the stream. -/
def Registration.id : Registration → StreamId
  | .created id _ => id
  | .existing id => id

namespace StreamRegistry

/-- The state of a registered stream. -/
def lookup (r : StreamRegistry) (name : String) : Option StreamState := r.streams.lookup name

/-- The number of registered streams. -/
def count (r : StreamRegistry) : Nat := r.streams.length

/-- Register a stream that a store has numbered; the nonce moves on. -/
def register (r : StreamRegistry) (name : String) (id : StreamId) (digest : Digest)
    (next : Nonce) : StreamRegistry :=
  { r with streams := r.streams ++ [(name, .start id digest)], nonce := next }

/-- The digest of a stream anchored to the present nonce, and the nonce after it. -/
def anchor (H : HashFunction) (r : StreamRegistry) (descriptor : StreamDescriptor) :
    Except SessionError (Digest × Nonce) :=
  InputError.lift do
    let digest ← streamDigest H r.nonce descriptor
    let next ← nextNonce H digest descriptor
    return (digest, next)

/-- Create a stream in a store and register it. A registered name keeps its stream, whatever the
descriptor says otherwise, and the store is not asked. -/
def create (H : HashFunction) (r : StreamRegistry) (store : Store) (descriptor : StreamDescriptor) :
    StreamRegistry × Store × Except SessionError Registration :=
  match r.lookup descriptor.name with
  | some state => (r, store, .ok (.existing state.id))
  | none =>
    match r.anchor H descriptor with
    | .error e => (r, store, .error e)
    | .ok (digest, next) =>
      match store.insertStream descriptor r.nonce digest with
      | (store, .error e) => (r, store, .error (.backend (.createStream descriptor.name) e))
      | (store, .ok id) =>
        (r.register descriptor.name id digest next, store, .ok (.created id digest))

/-- The registry after a record with this digest was written to a stream. -/
def advance (r : StreamRegistry) (name : String) (digest : Digest) : StreamRegistry :=
  { r with streams := r.streams.map fun s =>
      if s.1 = name then (s.1, s.2.advance digest) else s }

/-- Forget the streams; the nonce stays. -/
def clear (r : StreamRegistry) : StreamRegistry := { r with streams := [] }

/-- Ask the policy about removing a stream. -/
def remove (r : StreamRegistry) (descriptor : StreamDescriptor) : RemovalDecision :=
  r.policy descriptor (r.lookup descriptor.name)

end StreamRegistry

end SealedLog

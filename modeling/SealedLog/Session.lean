import SealedLog.Ledger.Event
import SealedLog.Registry
import SealedLog.Session.Cursor

/-!
# Sessions

A session writes records to the streams that it has created, and reads all records of its store.
It is closed, or open on one store for reading alone or for reading and writing.

* `Session`, `SessionConfig`, `OpenState`;
* `Session.attach`: open on a store that is there; `Session.release`: close;
* `create`, `write`, `hasNext`, `readNext`, `streams`, `metadata`, `remove`: what can be asked;
* `SessionCall`, `Session.call`: the same, as data.

A record is written in a fixed order: its digest is taken behind the tip of its stream, the store
inserts it, the tip moves on, and the ledger is told. When the store refuses, the tip stays and the
ledger is told nothing.
-/

namespace SealedLog

/-- The number under which a session's store is kept. -/
abbrev StoreKey := Nat

/-- How a session works. -/
structure SessionConfig where
  /-- How many records a page has. -/
  readBatchSize : Nat := 256
  manifestName : String := "metadata.json"
  /-- Whether a session that writes also writes the manifest. -/
  writesManifest : Bool := true
  deriving DecidableEq

/-- The size that pages are asked for: at least one record. -/
def SessionConfig.batch (config : SessionConfig) : Nat := max config.readBatchSize 1

/-- What a session keeps while it is open. -/
structure OpenState where
  store : StoreKey
  mode : AccessMode
  cursor : ReadCursor := {}
  /-- Whether the store was made ready for records. -/
  prepared : Bool := false
  /-- The streams of the store, once they were asked for. -/
  streamCache : Option (List StreamDescriptor) := none
  /-- The directory of the storage; a store that was attached has none. -/
  uri : Option Path := none
  files : List String := []
  deriving DecidableEq

/-- A session. -/
structure Session where
  registry : StreamRegistry
  config : SessionConfig := {}
  opened : Option OpenState := none

/-- What an operation leaves and answers. -/
structure Outcome (α : Type) where
  session : Session
  store : Store
  /-- What the ledger is told. -/
  events : List LedgerEvent := []
  answer : Except SessionError α

/-- The store after its statistics and then its size were asked for. -/
def Store.visitMetadata (store : Store) : Store :=
  match store.statistics with
  | .error _ => store.visit .statistics
  | .ok _ => (store.visit .statistics).visit .size

namespace OpenState

/-- What the storage holds. -/
def metadata (o : OpenState) (store : Store) : Except SessionError StorageMetadata := do
  let statistics ← StoreError.during .aggregate store.statistics
  let size ← StoreError.during .measure store.size
  return .ofStatistics o.files statistics size

/-- Make the store ready for records, once. -/
def prepare (o : OpenState) (store : Store) : Store × Except SessionError OpenState :=
  if o.prepared then (store, .ok o)
  else
    let (store, answer) := store.prepare
    (store, (StoreError.during .prepareInsert answer).map fun () => { o with prepared := true })

end OpenState

namespace Session

/-- A closed session that starts with a nonce. -/
def ofNonce (nonce : Nonce) (config : SessionConfig) : Session :=
  { registry := { nonce := nonce }, config := config }

/-- Whether the session is open. -/
def isOpen (s : Session) : Bool := s.opened.isSome

/-- The mode of an open session. -/
def mode (s : Session) : Option AccessMode := s.opened.map OpenState.mode

/-- An error that leaves everything as it is. -/
def refuse {α : Type} (s : Session) (store : Store) (e : SessionError) : Outcome α :=
  { session := s, store := store, answer := .error e }

/-- Open the session on a store. For writing, the store gets its schema. -/
def attach (s : Session) (store : Store) (key : StoreKey) (mode : AccessMode) : Outcome Unit :=
  if s.isOpen then s.refuse store .alreadyOpen
  else
    let attached := { s with opened := some { store := key, mode := mode } }
    if mode.isReadOnly then { session := attached, store := store, answer := .ok () }
    else
      match store.createSchema with
      | (store, .error e) => s.refuse store (.backend .createSchema e)
      | (store, .ok ()) => { session := attached, store := store, answer := .ok () }

/-- What the session keeps if it is open for writing. -/
def writable (s : Session) : Except SessionError OpenState :=
  match s.opened with
  | none => .error .notOpen
  | some o => if o.mode.isReadOnly then .error .readOnly else .ok o

/-- Create a stream, unless one of its name was created. The ledger is told of new streams. -/
def create (H : HashFunction) (s : Session) (store : Store) (descriptor : StreamDescriptor) :
    Outcome StreamId :=
  match s.writable with
  | .error e => s.refuse store e
  | .ok _ =>
    match s.registry.create H store descriptor with
    | (registry, store, .error e) => { s with registry := registry }.refuse store e
    | (registry, store, .ok (.existing id)) =>
      { session := { s with registry := registry }, store := store, answer := .ok id }
    | (registry, store, .ok (.created id digest)) =>
      { session := { s with registry := registry }, store := store, answer := .ok id
        events := [.streamCreated ⟨digest, descriptor⟩] }

/-- Insert a record behind the tip of its stream. -/
def append (H : HashFunction) (s : Session) (store : Store) (state : StreamState)
    (message : Message) : Outcome Digest :=
  match recordDigest H state.tip (message.link state.id) with
  | .error e => s.refuse store (.invalidInput e)
  | .ok digest =>
    match store.insertRecord state.id message.timestamp message.payload digest with
    | (store, .error e) => s.refuse store (.backend (.write message.stream) e)
    | (store, .ok ()) =>
      { session := { s with registry := s.registry.advance message.stream digest }
        store := store
        events := [.checkpoint ⟨digest, state.nonce, message⟩]
        answer := .ok digest }

/-- Write a record to its stream; its digest is answered. -/
def write (H : HashFunction) (s : Session) (store : Store) (message : Message) : Outcome Digest :=
  match s.writable with
  | .error e => s.refuse store e
  | .ok o =>
    match s.registry.lookup message.stream with
    | none => s.refuse store (.unknownStream message.stream)
    | some state =>
      match o.prepare store with
      | (store, .error e) => s.refuse store e
      | (store, .ok o) => { s with opened := some o }.append H store state message

/-- Whether there is another record to read. -/
def hasNext (s : Session) (store : Store) : Outcome Bool :=
  match s.opened with
  | none => s.refuse store .notOpen
  | some o =>
    match o.cursor.ready store s.config.batch with
    | .error e => s.refuse (o.cursor.visit store) e
    | .ok cursor =>
      { session := { s with opened := some { o with cursor := cursor } }
        store := o.cursor.visit store
        answer := .ok !cursor.buffer.isEmpty }

/-- Read the next record. -/
def readNext (s : Session) (store : Store) : Outcome Message :=
  match s.opened with
  | none => s.refuse store .notOpen
  | some o =>
    let after := o.cursor.visit store
    match o.cursor.ready store s.config.batch with
    | .error e => s.refuse after e
    | .ok cursor =>
      match cursor.buffer with
      | [] => { s with opened := some { o with cursor := cursor } }.refuse after .endOfStream
      | next :: rest =>
        { session := { s with opened := some { o with cursor := { cursor with buffer := rest } } }
          store := after
          answer := .ok next.message }

/-- The streams of the store in the order of creation, as they were when first asked for. -/
def streams (s : Session) (store : Store) : Outcome (List StreamDescriptor) :=
  match s.opened with
  | none => s.refuse store .notOpen
  | some o =>
    match o.streamCache with
    | some streams => { session := s, store := store, answer := .ok streams }
    | none =>
      match store.streams with
      | .error e => s.refuse (store.visit .streams) (.backend .listStreams e)
      | .ok streams =>
        { session := { s with opened := some { o with streamCache := some streams } }
          store := store.visit .streams
          answer := .ok streams }

/-- What the storage holds. -/
def metadata (s : Session) (store : Store) : Outcome StorageMetadata :=
  match s.opened with
  | none => s.refuse store .notOpen
  | some o => { session := s, store := store.visitMetadata, answer := o.metadata store }

/-- Ask for the removal of a stream; the answer says why it stays. -/
def remove (s : Session) (descriptor : StreamDescriptor) : Except SessionError RemovalDecision :=
  match s.opened with
  | none => .error .notOpen
  | some _ => .ok (s.registry.remove descriptor)

/-- The session without its store and its streams; the nonce stays. -/
def release (s : Session) : Session := { s with registry := s.registry.clear, opened := none }

/-- Read at most this many records, up to the end. -/
def readMany (s : Session) (store : Store) : Nat → Outcome (List Message)
  | 0 => { session := s, store := store, answer := .ok [] }
  | n + 1 =>
    match s.readNext store with
    | { session := s, store := store, answer := .error .endOfStream, .. } =>
      { session := s, store := store, answer := .ok [] }
    | { session := s, store := store, answer := .error e, .. } => s.refuse store e
    | { session := s, store := store, answer := .ok message, .. } =>
      let rest := s.readMany store n
      { rest with answer := rest.answer.map (message :: ·) }

/-- How many records are still to be read, at most. -/
def unread (s : Session) (store : Store) : Nat :=
  match s.opened with
  | none => 0
  | some o => o.cursor.buffer.length + store.recordCount

/-- Read all records up to the end. -/
def readAll (s : Session) (store : Store) : Outcome (List Message) :=
  s.readMany store (s.unread store + 1)

end Session

/-- What can be asked of an open session. -/
inductive SessionCall
  | create (descriptor : StreamDescriptor)
  | write (message : Message)
  | hasNext
  | readNext
  | readAll
  | remove (descriptor : StreamDescriptor)
  | streams
  | metadata
  deriving DecidableEq

/-- What a session answers. -/
inductive SessionAnswer
  | created (id : StreamId)
  | written (digest : Digest)
  | more (isMore : Bool)
  | message (message : Message)
  | messages (messages : List Message)
  | removal (decision : RemovalDecision)
  | streams (descriptors : List StreamDescriptor)
  | metadata (metadata : StorageMetadata)
  deriving DecidableEq

namespace Outcome

variable {α β : Type}

/-- The outcome with a function of its answer. -/
def map (f : α → β) (o : Outcome α) : Outcome β := { o with answer := o.answer.map f }

end Outcome

/-- Carry out one call. -/
def Session.call (H : HashFunction) (s : Session) (store : Store) :
    SessionCall → Outcome SessionAnswer
  | .create descriptor => (s.create H store descriptor).map .created
  | .write message => (s.write H store message).map .written
  | .hasNext => (s.hasNext store).map .more
  | .readNext => (s.readNext store).map .message
  | .readAll => (s.readAll store).map .messages
  | .remove descriptor =>
    { session := s, store := store, answer := (s.remove descriptor).map .removal }
  | .streams => (s.streams store).map .streams
  | .metadata => (s.metadata store).map .metadata

end SealedLog

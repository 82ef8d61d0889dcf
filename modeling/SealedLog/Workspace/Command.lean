import SealedLog.Audit
import SealedLog.Workspace.Basic

/-!
# Commands

What can be asked of a workspace, and what it answers.

* `Command`, a family of commands for each kind of thing;
* `Answer`, `Failure`.
-/

namespace SealedLog

/-- Commands on files. -/
inductive FileCommand
  | makeDirectory
  | put (octets : Bytes)
  | get
  | remove
  | status
  | list

/-- A store to be made. -/
inductive StoreKind
  | memory
  | database
  | file (path : String) (mode : AccessMode)

/-- Commands on a store. -/
inductive StoreCommand
  | make (kind : StoreKind)
  | drop
  | createSchema
  | prepare
  | insertStream (descriptor : StreamDescriptor) (nonce : Nonce) (digest : Digest)
  | insertRecord (stream : StreamId) (timestamp : Int64) (payload : Bytes) (digest : Digest)
  | lastId
  | page (after : ReadPosition) (limit : Nat)
  /-- All pages up to an empty one. -/
  | pages (limit : Nat)
  | streams
  | statistics
  | anchors
  | chain (id : StreamId)
  | size
  | replaceDigest (id : Int64) (digest : Digest)
  | setFaults (methods : List StoreMethod)
  | audit

/-- Commands on a registry. -/
inductive RegistryCommand
  | make (nonce : Nonce) (policy : RemovalPolicy)
  | create (store : String) (descriptor : StreamDescriptor)
  | lookup (name : String)
  | remove (descriptor : StreamDescriptor)
  | info

/-- Whom a session to be made talks to. -/
inductive AudienceName
  | workspace
  | nobody
  | publisher (name : String)

/-- Commands on a session. -/
inductive SessionCommand
  | make (nonce : Nonce) (policy : RemovalPolicy) (config : SessionConfig) (audience : AudienceName)
  | attach (store : String) (mode : AccessMode)
  | openAt (uri : String) (mode : AccessMode) (faults : FaultPlan) (refusal : Option StoreError)
  | call (call : SessionCall)
  | close
  | drop
  | info
  | lookup (name : String)

/-- Commands on the backends. -/
inductive BackendCommand
  | reset (backends : Backends)
  | register (identifier : String) (source : NonceSource)
  | contains (identifier : String)
  | identifiers
  /-- Make a session of a backend. -/
  | create (identifier : String) (session : String) (config : SessionConfig)

/-- Commands on a publisher. -/
inductive PublisherCommand
  | make (config : PublisherConfig)
  | offer (event : LedgerEvent)
  | submit (event : LedgerEvent)
  | setFailing (isFailing : Bool)
  | setStalled (isStalled : Bool)
  | drain
  | counts
  | clone
  | drop
  | join
  | abort
  | events

/-- What can be asked of a workspace. -/
inductive Command
  | file (path : String) (command : FileCommand)
  | editDatabase (path : String) (edit : Database.Edit)
  | store (name : String) (command : StoreCommand)
  | registry (name : String) (command : RegistryCommand)
  | session (name : String) (command : SessionCommand)
  | backend (command : BackendCommand)
  | publisher (name : String) (command : PublisherCommand)
  /-- The events that sessions told the workspace. -/
  | events

/-- Why a command fails. -/
inductive Failure
  | file
  | database
  | store (error : StoreError)
  | session (error : SessionError)
  | publish (error : PublishError)
  /-- Nothing has this name, or what has it does not take the command. -/
  | unsuitable
  deriving DecidableEq

/-- What stands at a path. -/
inductive Status
  | directory
  | file
  | nothing
  deriving DecidableEq, Repr

/-- A number of octets, exact or only as whether there are any. -/
inductive SizeReport
  | exact (octets : UInt64)
  | positive (isPositive : Bool)
  deriving DecidableEq

/-- What is told about a session. -/
inductive SessionInfo
  | direct (mode : Option AccessMode) (nonce : Nonce) (count : Nat) (batch : Nat)
  /-- A session of a backend only tells its identifier. -/
  | backend (identifier : String)
  deriving DecidableEq

/-- What a workspace answers. -/
inductive Answer
  | failed (failure : Failure)
  | done
  | dropped (wasThere : Bool)
  | text (text : String)
  | status (status : Status)
  | names (names : List String)
  | rows (count : Nat)
  | id (number : Int64)
  | page (messages : List StoredMessage)
  | pages (pages : List (List StoredMessage))
  | descriptors (descriptors : List StreamDescriptor)
  | statistics (statistics : List StreamStatistics)
  | anchors (anchors : List StreamAnchor)
  | records (records : List Record)
  | size (size : SizeReport)
  | found (isFound : Bool)
  | audit (report : AuditReport)
  | registration (registration : Registration)
  | state (state : Option StreamState)
  | removal (decision : RemovalDecision)
  | registry (nonce : Nonce) (count : Nat)
  | session (info : SessionInfo)
  /-- A digest, with whether the first nonce of its session was drawn. -/
  | digest (digest : Digest) (isDrawn : Bool)
  | more (isMore : Bool)
  | message (message : Message)
  | messages (messages : List Message)
  | metadata (metadata : StorageMetadata) (size : SizeReport)
  | backend (identifier : String)
  | replaced (wasThere : Bool)
  | contains (isThere : Bool)
  | counts (counts : PublisherCounts)
  | clones (count : Nat)
  | joined (isEnded : Bool) (counts : PublisherCounts)
  | events (events : List LedgerEvent)
  deriving DecidableEq

/-- The answer, or why there is none. -/
def Answer.ofExcept {ε α : Type} (failure : ε → Failure) (answer : α → Answer) :
    Except ε α → Answer
  | .error e => .failed (failure e)
  | .ok a => answer a

end SealedLog

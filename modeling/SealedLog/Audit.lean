import SealedLog.Chain
import SealedLog.Session.Error
import SealedLog.Store

/-!
# Audits

An audit recomputes every digest of a store from the stored values before it and reports where a
stored value differs.

* `Violation`, `AuditReport`;
* `Audit.checkStream`, `Audit.checkAnchor`, `Audit.checkRecords`: the checks of one stream;
* `Store.audit`: the report on a store.
-/

namespace SealedLog

/-- Which value differs. -/
inductive ViolationKind
  | streamDigestMismatch
  | anchorBreak
  | recordDigestMismatch
  deriving DecidableEq, Repr

/-- A stored value that differs from the computed one. -/
structure Violation where
  kind : ViolationKind
  stream : String
  /-- The place of the record in its stream, from zero. -/
  recordIndex : Option Nat
  description : String
  deriving DecidableEq

/-- What an audit found. -/
structure AuditReport where
  streamsChecked : Nat := 0
  recordsChecked : Nat := 0
  violations : List Violation := []
  /-- The last stored digest of each stream; of two streams of one name the later counts. -/
  tips : List (String × Digest) := []
  deriving DecidableEq

namespace AuditReport

/-- Whether nothing differs. -/
def isClean (r : AuditReport) : Bool := r.violations.isEmpty

/-- The last stored digest of a stream. -/
def tip (r : AuditReport) (name : String) : Option Digest := r.tips.reverse.lookup name

/-- The number of violations of one kind. -/
def count (r : AuditReport) (kind : ViolationKind) : Nat :=
  (r.violations.filter fun v => v.kind == kind).length

end AuditReport

namespace Audit

/-- Two digests, the stored and the computed one. -/
def difference (stored computed : Digest) : String :=
  "stored " ++ stored.toHex ++ ", computed " ++ computed.toHex

/-- Check the digest of a stream against its nonce and descriptor. -/
def checkStream (H : HashFunction) (a : StreamAnchor) : Except InputError (List Violation) := do
  let computed ← streamDigest H a.nonce a.descriptor
  return if computed = a.digest then []
    else [⟨.streamDigestMismatch, a.descriptor.name, none, difference a.digest computed⟩]

/-- Check the nonce of a stream against the stream before it. -/
def checkAnchor (H : HashFunction) (previous a : StreamAnchor) :
    Except InputError (List Violation) := do
  let computed ← nextNonce H previous.digest previous.descriptor
  return if computed = a.nonce then []
    else [⟨.anchorBreak, a.descriptor.name, none,
      "nonce does not follow from stream '" ++ previous.descriptor.name ++ "'"⟩]

/-- Check records from a place on, each against the stored digest before it. -/
def checkRecords (H : HashFunction) (name : String) :
    Digest → Nat → List Record → Except InputError (List Violation)
  | _, _, [] => .ok []
  | previous, index, r :: rest => do
    let computed ← recordDigest H previous r.link
    let found ← checkRecords H name r.digest (index + 1) rest
    return if computed = r.digest then found
      else ⟨.recordDigestMismatch, name, some index, difference r.digest computed⟩ :: found

/-- The last stored digest of a stream with these records. -/
def lastDigest (a : StreamAnchor) (records : List Record) : Digest :=
  (records.getLast?.map Record.digest).getD a.digest

/-- Check the streams that are left, behind the stream `previous`. -/
def checkFrom (H : HashFunction) (store : Store) (report : AuditReport) :
    Option StreamAnchor → List StreamAnchor → Except SessionError AuditReport
  | _, [] => .ok report
  | previous, a :: rest => do
    let name := a.descriptor.name
    let ofStream ← InputError.lift (checkStream H a)
    let ofAnchor ←
      match previous with
      | none => pure []
      | some p => InputError.lift (checkAnchor H p a)
    let records ← StoreError.during (.auditStream name) (store.chain a.id)
    let ofRecords ← InputError.lift (checkRecords H name a.digest 0 records)
    let report : AuditReport :=
      { streamsChecked := report.streamsChecked + 1
        recordsChecked := report.recordsChecked + records.length
        violations := report.violations ++ ofStream ++ ofAnchor ++ ofRecords
        tips := report.tips ++ [(name, lastDigest a records)] }
    checkFrom H store report (some a) rest

end Audit

/-- The report on a store. -/
def Store.audit (H : HashFunction) (store : Store) : Except SessionError AuditReport := do
  let anchors ← StoreError.during .auditAnchors store.anchors
  Audit.checkFrom H store {} none anchors

end SealedLog

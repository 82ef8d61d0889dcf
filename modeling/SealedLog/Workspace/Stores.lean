import SealedLog.Workspace.Command

/-!
# Commands on stores

* `Workspace.storeStep`: make, change, query and audit a store;
* `Store.pages`: all pages of a store up to an empty one.
-/

namespace SealedLog

namespace Store

/-- At most `n` pages behind a place, up to an empty one. -/
def pagesFrom (s : Store) (limit : Nat) :
    Nat → ReadPosition → Except StoreError (List (List StoredMessage))
  | 0, _ => .ok []
  | n + 1, after => do
    let page ← s.page after limit
    match page.getLast? with
    | none => return []
    | some last => return page :: (← s.pagesFrom limit n last.position)

/-- All pages up to an empty one. Each page but the last brings one record at least. -/
def pages (s : Store) (limit : Nat) : Except StoreError (List (List StoredMessage)) :=
  s.pagesFrom limit (s.recordCount + 1) .start

/-- What is told of a size: the exact number only for stores in memory. -/
def reportSize (s : Store) (octets : UInt64) : SizeReport :=
  if s.isInMemory then .exact octets else .positive (decide (0 < octets))

/-- Replace the digest of a record in memory, and whether there is the record; other stores do not
take this. -/
def replaceDigest (s : Store) (id : Int64) (digest : Digest) : Store × Option Bool :=
  match s.engine with
  | .memory m =>
    let (m, isFound) := m.replaceDigest id digest
    ({ s with engine := .memory m }, some isFound)
  | .connection _ => (s, none)

end Store

namespace Workspace

/-- Make a store. -/
def makeStore (w : Workspace) (name : String) : StoreKind → Workspace × Answer
  | .memory => (w.addStore name { store := .inMemory }, .done)
  | .database => (w.addStore name { store := .inDatabase }, .done)
  | .file path mode =>
    match w.files.openStore (w.locate path) mode with
    | (files, .error e) => ({ w with files := files }, .failed (.store e))
    | (files, .ok attached) => ({ w with files := files }.addStore name attached, .done)

/-- The answer of a store. -/
def ofStore {α : Type} (answer : α → Answer) : Except StoreError α → Answer :=
  .ofExcept .store answer

/-- Carry out a command on a store that is there. -/
def storeCall (H : HashFunction) (s : Store) : StoreCommand → Store × Answer
  | .make _ => (s, .failed .unsuitable)
  | .drop => (s, .failed .unsuitable)
  | .createSchema => s.createSchema.map id (ofStore fun () => .done)
  | .prepare => s.prepare.map id (ofStore fun () => .done)
  | .insertStream descriptor nonce digest =>
    (s.insertStream descriptor nonce digest).map id (ofStore fun id => .id id.number)
  | .insertRecord stream timestamp payload digest =>
    (s.insertRecord stream timestamp payload digest).map id (ofStore fun () => .done)
  | .lastId => (s, .id s.lastId)
  | .page after limit => (s.visit .page, ofStore .page (s.page after limit))
  | .pages limit => (s.visit .page, ofStore .pages (s.pages limit))
  | .streams => (s.visit .streams, ofStore .descriptors s.streams)
  | .statistics => (s.visit .statistics, ofStore .statistics s.statistics)
  | .anchors => (s.visit .anchors, ofStore .anchors s.anchors)
  | .chain id => (s.visit .chain, ofStore .records (s.chain id))
  | .size => (s.visit .size, ofStore (fun octets => .size (s.reportSize octets)) s.size)
  | .replaceDigest number digest =>
    (s.replaceDigest number digest).map id fun isFound =>
      (isFound.map Answer.found).getD (.failed .unsuitable)
  | .setFaults methods => ({ s with faults := .ofMethods methods }, .done)
  | .audit => (s.visit .anchors, .ofExcept .session .audit (s.audit H))

/-- Carry out a command on a store. -/
def storeStep (H : HashFunction) (w : Workspace) (name : String) : StoreCommand → Workspace × Answer
  | .make kind => w.makeStore name kind
  | .drop =>
    ({ w with storeNames := w.storeNames.erase name }, .dropped (w.storeNames.lookup name).isSome)
  | command =>
    match w.storeNames.lookup name with
    | none => (w, .failed .unsuitable)
    | some key => w.onStore key fun s => storeCall H s command

end Workspace

end SealedLog

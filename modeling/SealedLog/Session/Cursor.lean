import SealedLog.Session.Error
import SealedLog.Store

/-!
# Read cursors

A cursor goes once over all records of a store, in the order of time and record number, and fetches
them in pages.

* `ReadCursor`: the records fetched and not yet read, and the place behind them;
* `ReadCursor.refill`: fetch one more page; `ReadCursor.ready`: fetch one if none is left to read.

A page that is shorter than asked for is the last: nothing is fetched behind it.
-/

namespace SealedLog

/-- A place in a reading of all records. -/
structure ReadCursor where
  /-- The records that were fetched and not yet read. -/
  buffer : List StoredMessage := []
  /-- The place of the last record fetched. -/
  position : ReadPosition := .start
  /-- Whether the last page was fetched. -/
  exhausted : Bool := false
  deriving DecidableEq

namespace ReadCursor

/-- The cursor after a page that was asked for with this size. -/
def extend (c : ReadCursor) (batch : Nat) (page : List StoredMessage) : ReadCursor where
  buffer := c.buffer ++ page
  position := (page.getLast?.map StoredMessage.position).getD c.position
  exhausted := c.exhausted || decide (page.length < batch)

/-- Fetch one more page. -/
def refill (c : ReadCursor) (store : Store) (batch : Nat) : Except SessionError ReadCursor :=
  (StoreError.during .readRecords (store.page c.position batch)).map (c.extend batch)

/-- Whether a page is to be fetched before anything can be read. -/
def isSpent (c : ReadCursor) : Bool := c.buffer.isEmpty && !c.exhausted

/-- Make sure that there is something to read, unless the end is reached. -/
def ready (c : ReadCursor) (store : Store) (batch : Nat) : Except SessionError ReadCursor :=
  if c.isSpent then c.refill store batch else .ok c

/-- The store after `ready`. -/
def visit (c : ReadCursor) (store : Store) : Store :=
  if c.isSpent then store.visit .page else store

end ReadCursor

end SealedLog

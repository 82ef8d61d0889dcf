import SealedLog.Backends
import SealedLog.Ledger.Clock
import SealedLog.Session.Open

/-!
# Workspaces

A workspace is a directory tree with stores, registries, sessions and publishers under names.

* `Workspace`, `Workspace.empty`;
* `Member`: a session of a workspace; `Audience`: whom its events go to;
* `Workspace.onStore`: change a store, through its file if it has one;
* `Workspace.closeStores`: close the stores that nobody uses any more;
* `Workspace.tell`: pass events on.

A store is kept when its name is given up, since sessions that have it open still use it. Likewise
a publisher. A store that nobody uses any more is closed.
-/

namespace SealedLog

/-- Things under names. A name stands for one thing. -/
abbrev Named (α : Type) := List (String × α)

namespace Named

variable {α : Type}

/-- Give up a name. -/
def erase (things : Named α) (name : String) : Named α := things.filter fun t => t.1 != name

/-- Give a name to a thing, in place of what had it. -/
def put (things : Named α) (name : String) (thing : α) : Named α :=
  things.erase name ++ [(name, thing)]

end Named

/-- The number of a publisher in its workspace. -/
abbrev PublisherKey := Nat

/-- Whom the events of a session go to. -/
inductive Audience
  /-- The workspace itself, which keeps them. -/
  | workspace
  | nobody
  | publisher (key : PublisherKey)
  deriving DecidableEq

/-- A session of a workspace. -/
structure Member where
  session : Session
  audience : Audience
  /-- What the session started with, if a backend made it. -/
  source : Option NonceSource := none

/-- What stands under the name of a publisher: its number and how many clones are left. -/
structure PublisherHandle where
  key : PublisherKey
  clones : Nat := 1
  deriving DecidableEq

/-- A workspace. -/
structure Workspace where
  /-- The directory that the paths of commands start at. -/
  base : Path
  files : FileSystem := {}
  stores : List Attached := []
  storeNames : Named StoreKey := []
  registries : Named StreamRegistry := []
  sessions : Named Member := []
  publishers : Publishers := []
  publisherNames : Named PublisherHandle := []
  backends : Backends := {}
  /-- The events that sessions told the workspace. -/
  events : List LedgerEvent := []
  /-- How many nonces were drawn. -/
  drawn : Nat := 0

namespace Workspace

/-- A workspace that has nothing but its directory. -/
def empty (base : Path) : Workspace where
  base := base
  files :=
    { nodes := (List.range base.names.length).map fun n => (base.names.take (n + 1), .directory) }

/-- The path that a command means. -/
def locate (w : Workspace) (relative : String) : Path := ⟨w.base.text ++ "/" ++ relative⟩

/-- A store with the file that it has open. -/
def attachedAt (w : Workspace) (key : StoreKey) : Attached := w.stores.getD key default

/-- A store with what its file holds now. -/
def storeAt (w : Workspace) (key : StoreKey) : Store := (w.attachedAt key).load w.files

/-- Put a store back, and its changes into its file. -/
def putStore (w : Workspace) (key : StoreKey) (store : Store) : Workspace :=
  let (attached, files) := (w.attachedAt key).save w.files store
  { w with files := files, stores := w.stores.set key attached }

/-- Change a store. -/
def onStore {α : Type} (w : Workspace) (key : StoreKey) (change : Store → Store × α) :
    Workspace × α :=
  let (store, answer) := change (w.storeAt key)
  (w.putStore key store, answer)

/-- Keep one more store under a name. -/
def addStore (w : Workspace) (name : String) (attached : Attached) : Workspace :=
  { w with stores := w.stores ++ [attached], storeNames := w.storeNames.put name w.stores.length }

/-- Whether a store is in use: under a name or in a session. -/
def isUsed (w : Workspace) (key : StoreKey) : Bool :=
  (w.storeNames.any fun s => s.2 == key) ||
    w.sessions.any fun m => m.2.session.opened.map OpenState.store == some key

/-- Whether a store works on the log of another one that is kept. -/
def sharesLog (w : Workspace) (attached : Attached) : Bool := w.stores.any attached.sharesLog

/-- Close a store that works on a log once nobody uses it any more. -/
def closeStore (w : Workspace) (key : StoreKey) : Workspace :=
  let attached := w.attachedAt key
  if attached.log.isNone || w.isUsed key then w
  else
    let w := { w with stores := w.stores.set key { attached with file := none, log := none } }
    { w with files := attached.close w.files (w.sharesLog attached) }

/-- Close the stores that nobody uses any more. -/
def closeStores (w : Workspace) : Workspace := (List.range w.stores.length).foldl closeStore w

/-- Change a publisher. -/
def onPublisher (w : Workspace) (key : PublisherKey) (change : Publisher → Publisher) : Workspace :=
  { w with publishers := w.publishers.modify key change }

/-- Pass events on. -/
def tell (w : Workspace) (audience : Audience) (events : List LedgerEvent) : Workspace :=
  match audience with
  | .workspace => { w with events := w.events ++ events }
  | .nobody => w
  | .publisher key => w.onPublisher key fun p => events.foldl Publisher.offer p

end Workspace

end SealedLog

import SealedLog.Files.Tree
import SealedLog.Files.Uri
import SealedLog.Store

/-!
# Database files in the directory tree

* `FileSystem.resolve`: the location that the path of a database means;
* `Attached`: a store with the file that it has open, if any;
* `Attached.load`, `Attached.save`: the store with what its file holds now, and a store's changes
  put into the file;
* `Attached.close`: what becomes of a log when its stores are closed;
* `FileSystem.openStore`: open a database file as a store.

The path of a database is followed name by name before the file is opened: `..` undoes the name
before it, so that name need not exist, but nothing on the way may be barred. A path that stands for
no file opens a database that only its connection has.
-/

namespace SealedLog

/-- The location next to another, with this behind its last name. -/
def Location.beside (location : Location) (suffix : String) : Location :=
  location.dropLast ++ [location.getLast?.getD "" ++ suffix]

/-- Where the journal of a database stands. -/
def Location.journal (location : Location) : Location := location.beside "-journal"

/-- Where the log of a database stands. -/
def Location.log (location : Location) : Location := location.beside "-wal"

/-- Where the index to the log of a database stands. -/
def Location.index (location : Location) : Location := location.beside "-shm"

namespace FileSystem

/-! ### Paths of databases -/

/-- The text of the absolute path to a location. -/
def pathText (location : Location) : String := String.join (location.map fun name => "/" ++ name)

/-- The greatest length of the path of a database, in octets. -/
def maxDatabasePath : Nat := 504

/-- The greatest length of a path on the way to a database, in octets. -/
def maxStepPath : Nat := 511

/-- Whether a location can be looked at, be there anything or not. -/
def isOpenTo (fs : FileSystem) (location : Location) : Bool :=
  decide ((Bytes.ofText (pathText location)).length ≤ maxStepPath) &&
    match fs.walk [] location with
    | .ok _ => true
    | .error e => e == .notFound

/-- Follow names from a location, each of which must be open to a look. -/
def resolveFrom (fs : FileSystem) (here : Location) : List String → Option Location
  | [] => some here
  | name :: rest =>
    if name = ".." then fs.resolveFrom here.dropLast rest
    else if fs.isOpenTo (here ++ [name]) then fs.resolveFrom (here ++ [name]) rest
    else none

/-- The location that the path of a database means. -/
def resolve (fs : FileSystem) (p : Path) : Option Location :=
  if p.hasNul then none
  else
    p.databaseFile?.bind fun file =>
      (fs.resolveFrom [] file.names).filter fun location =>
        decide ((Bytes.ofText (pathText location)).length ≤ maxDatabasePath)

/-- The database file at a path. For writing it is made if nothing is there. -/
def findDatabase (fs : FileSystem) (p : Path) (mode : AccessMode) :
    Option (FileSystem × Location × FileId) := do
  let location ← fs.resolve p
  match fs.walk [] location with
  | .ok (.file location id) => return (fs, location, id)
  | .ok (.vacant location) =>
    if mode.isReadOnly then none
    else
      let (fs, id) := fs.addFile location (.plain [])
      return (fs, location, id)
  | _ => none

/-! ### Files and connections -/

/-- What stands at a location beside a database. -/
def companion (fs : FileSystem) (location : Location) : Companion :=
  match fs.walk [] location with
  | .ok (.directory _) => .directory
  | .ok (.file _ id) => .file (fs.content id)
  | _ => .nothing

/-- The file at a location. -/
def fileAt? (fs : FileSystem) (location : Location) : Option FileId :=
  match fs.walk [] location with
  | .ok (.file _ id) => some id
  | _ => none

/-- Whether a name is too long to stand in a directory. -/
def isNameTooLong (location : Location) : Bool :=
  decide (maxName < (Bytes.ofText (location.getLast?.getD "")).length)

/-- Whether the file with this number is still at its location. -/
def place (fs : FileSystem) (location : Location) (id : FileId) : Place :=
  if isNameTooLong location.journal then .unreachable
  else
    match fs.walk [] location with
    | .ok (.file _ other) => if other = id then .inPlace else .moved
    | .ok (.directory _) => .moved
    | _ => .unreachable

/-- Take the file at a location out of the tree if it is gone for the database beside it. -/
def clear (fs : FileSystem) (location : Location) : Companion → FileSystem
  | .nothing => fs.removeAt location
  | _ => fs

/-- The first octets of an index. -/
def indexMark : Bytes := [24, 226, 45, 0]

/-- Make the index to the log of a database. A file in its place is made the index, whatever it
holds. -/
def ensureIndex (fs : FileSystem) (location : Location) : FileSystem :=
  match fs.walk [] location.index with
  | .ok (.vacant index) => (fs.addFile index (.plain indexMark)).1
  | .ok (.file _ id) => fs.setContent id (.plain indexMark)
  | _ => fs

/-- Remove the log of a database and its index. -/
def removeLog (fs : FileSystem) (location : Location) : FileSystem :=
  (fs.removeAt location.log).removeAt location.index

end FileSystem

/-- What a connection keeps of its file, under the stamp that the file had. -/
structure Impression where
  stamp : Stamp := {}
  content : Content := .plain []
  deriving DecidableEq

/-- A store with the file that it has open. -/
structure Attached where
  store : Store
  /-- Where the file was opened, and its number. -/
  file : Option (Location × FileId) := none
  /-- The log that takes the store's changes. -/
  log : Option FileId := none
  seen : Option Impression := none

instance : Inhabited Attached := ⟨{ store := .inMemory }⟩

namespace Attached

/-- Whether a connection goes by what it keeps of a file: the file has the stamp of before. -/
def keeps (a : Attached) (here : Content) : Bool :=
  !here.isEmpty && a.seen.any fun seen => seen.stamp == here.stamp

/-- What the connection of a store takes its file to hold. What it keeps of the time when nothing
was written to the file makes no database. -/
def view (a : Attached) (here : Content) : Content :=
  match a.seen, a.keeps here with
  | some seen, true => if seen.content.isEmpty then .broken else seen.content
  | _, _ => here

/-- What the connection of a store reads: what its log leads to, or what its file holds. When others
overwrite its log, it is left with what it has read. -/
def content (a : Attached) (fs : FileSystem) (id : FileId) (known : Content) : Content :=
  match a.log with
  | none => a.view (fs.content id)
  | some log => known.follow (fs.content log)

/-- The count from which a connection counts its next change. -/
def changes (a : Attached) : Content → Nat
  | .database _ changes => changes
  | _ => (a.seen.map fun seen => seen.stamp.changes).getD 0

/-- The store with what its file holds now. -/
def load (a : Attached) (fs : FileSystem) : Store :=
  match a.store.engine, a.file with
  | .connection c, some (location, id) =>
    let content := a.content fs id c.content
    { a.store with
      engine := .connection { c with
        content := content
        changes := a.changes content
        hasLooked := false
        place := fs.place location id
        journal := fs.companion location.journal
        log := fs.companion location.log } }
  | _, _ => a.store

/-- What a connection keeps of its file once it has looked at it. An empty file leaves the stamp. -/
def impression (a : Attached) (c : Connection) (here : Content) : Option Impression :=
  if !c.hasLooked || c.content = a.view here && a.keeps here then a.seen
  else if c.content.isEmpty then
    some { stamp := (a.seen.map Impression.stamp).getD {}, content := c.content }
  else some { stamp := c.content.stamp, content := c.content }

/-- Put a store's changes into its log, once it works on one, else into its file. -/
def save (a : Attached) (fs : FileSystem) (store : Store) : Attached × FileSystem :=
  match store.engine, a.file with
  | .connection c, some (location, id) =>
    let isChanged := store.content? != (a.load fs).content?
    let fs := (fs.clear location.journal c.journal).clear location.log c.log
    if c.isLogged then
      let log := a.log.or (fs.fileAt? location.log)
      let fs := if a.log.isSome then fs else fs.ensureIndex location
      ({ a with store := store, log := log },
        if isChanged then (log.map fun log => fs.setContent log c.content.logged).getD fs else fs)
    else
      ({ a with store := store, seen := a.impression c (fs.content id) },
        if isChanged then fs.setContent id c.content else fs)
  | _, _ => ({ a with store := store }, fs)

/-- Whether two stores work on the log of one file. -/
def sharesLog (a b : Attached) : Bool :=
  a.log.isSome && b.log.isSome && a.file.map Prod.snd == b.file.map Prod.snd

/-- The tree after a store is closed. The last store on a log that can write puts what the log leads
to into the file, and removes the log. A log that was overwritten stays if anything is lost with
it. -/
def close (a : Attached) (fs : FileSystem) (isShared : Bool) : FileSystem :=
  match a.store.engine, a.file, a.log with
  | .connection c, some (location, id), some log =>
    if isShared || c.mode.isReadOnly || fs.place location id != .inPlace then fs
    else
      match fs.content log with
      | .log d => (fs.setContent id ((fs.content id).follow (.log d))).removeLog location
      | _ => if fs.content id = c.content then fs.removeLog location else fs
  | _, _, _ => fs

end Attached

namespace FileSystem

/-- Check that what is read has the supported schema. -/
def checkSchema (p : Path) (c : Connection) : Except StoreError Unit :=
  match c.read.bind Database.version with
  | .error _ => .error (.invalidData (p.text ++ " is not a chainlog store"))
  | .ok version =>
    if version = schemaVersion then .ok ()
    else
      .error (.migration ("unsupported schema version " ++ toString version.toInt ++ " in " ++
        p.text))

/-- Open a database that is in no file, if the path stands for one. There is nothing to read in
it. -/
def openPrivate (p : Path) (mode : AccessMode) : Except StoreError Attached :=
  let c : Connection := { content := .plain [], mode := mode }
  if p.hasNul || !p.database?.any Path.isPrivate then .error (.database .statement)
  else
    match mode with
    | .readOnly => (checkSchema p c).map fun () => { store := { engine := .connection c } }
    | .readWrite => .ok { store := { engine := .connection c } }

/-- Open a database file as a store. For reading, its schema is looked at. -/
def openStore (fs : FileSystem) (p : Path) (mode : AccessMode) :
    FileSystem × Except StoreError Attached :=
  match fs.findDatabase p mode with
  | none => (fs, openPrivate p mode)
  | some (fs, location, id) =>
    let attached : Attached :=
      { store := { engine := .connection { content := fs.content id, mode := mode } }
        file := some (location, id) }
    match mode, (attached.load fs).engine with
    | .readOnly, .connection c =>
      let (attached, fs) := attached.save fs { engine := .connection c.visit }
      (fs, (checkSchema p c).map fun () => attached)
    | _, _ => (fs, .ok attached)

end FileSystem

end SealedLog

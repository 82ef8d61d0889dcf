import SealedLog.Store.Content

/-!
# Connections to a database file

* `Connection`: an open file with its mode, what stands beside it, and what the connection knows of
  its tables;
* `Connection.settle`, `read`, `visit`: how a statement begins;
* `Connection.createSchema`, `prepare`, `insertStream`, `insertRecord`, `edit`: the changes;
* `Connection.query`, `size`: the answers.

Beside its file a database may have a journal, made by every change and removed when the change is
complete, and a log, which takes changes in place of the file once it is there. Each statement
first looks at both. A journal that was left behind is cleared away.

A connection keeps its file when the file is removed or replaced under it: it still reads what it
has, but a database that has left its place takes no more writes.
-/

namespace SealedLog

/-- Whether a connection's file is still where it was opened. -/
inductive Place
  | inPlace
  /-- Something else stands where the file was. -/
  | moved
  /-- Nothing stands there, or no file can be made beside it, as every write needs. -/
  | unreachable
  deriving DecidableEq, Repr

/-- An open database file. -/
structure Connection where
  content : Content
  mode : AccessMode
  /-- The row number that this connection gave out last. -/
  lastId : Int64 := 0
  place : Place := .inPlace
  journal : Companion := .nothing
  log : Companion := .nothing
  /-- Whether the connection works on a log. -/
  isLogged : Bool := false
  /-- Whether the tables of streams and records were there when last looked for. -/
  knowsTables : Bool := false
  /-- Whether the statement that inserts records is kept. -/
  isPrepared : Bool := false
  /-- The count of changes from which the next one is counted. -/
  changes : Nat := 0
  /-- Whether a statement has looked at the file. -/
  hasLooked : Bool := false

namespace Connection

/-- A database of its own, which is no file. -/
def inMemory : Connection := { content := .plain [], mode := .readWrite }

/-- Refuse changes on a connection for reading. -/
def requireWritable (c : Connection) : Except StoreError Unit :=
  if c.mode.isReadOnly then .error .readOnly else .ok ()

/-! ### How a statement begins -/

/-- Clear away the journal of an unfinished change, which changed nothing yet. Beside an empty
database any journal is left from another one. -/
def clearJournal (c : Connection) : Connection :=
  if c.isLogged || c.mode.isReadOnly then c
  else
    match c.journal with
    | .file journal =>
      if journal.hasOctets &&
          (c.content.isEmpty || journal.isMarked && c.place != .unreachable) then
        { c with journal := .nothing }
      else c
    | _ => c

/-- Whether something beside the file keeps every statement from it: a directory in the place of a
file, an unfinished change that must not be cleared away, or a file that cannot be opened. -/
def isBlocked (c : Connection) : Bool :=
  !c.isLogged && (c.log == .directory ||
    !c.content.isEmpty && (c.journal == .directory || c.journal.isHot ||
      c.place == .unreachable && (c.journal.isSeen || c.log.isSeen)))

/-- Take up a log. Beside an empty database it is removed as left from another one. -/
def joinLog (c : Connection) : Connection :=
  if c.isLogged then c
  else
    match c.log with
    | .file log =>
      if !log.hasOctets then c
      else if c.content.isEmpty then { c with log := .nothing }
      else { c with isLogged := true, content := c.content.follow log }
    | _ => c

/-- The connection once what stands beside its file, and then the file, has been looked at. -/
def settle (c : Connection) : Connection :=
  if c.clearJournal.isBlocked then c.clearJournal
  else { c.clearJournal.joinLog with hasLooked := true }

/-- The database that a statement works on. -/
def read (c : Connection) : Except StoreError Database :=
  if c.settle.isBlocked then .error (.database .statement) else c.settle.content.database?

/-- The connection after a statement: it knows the tables that it has seen. -/
def visit (c : Connection) : Connection :=
  match c.read with
  | .error _ => c.settle
  | .ok d => { c.settle with knowsTables := d.tables.isSome }

/-! ### Changes -/

/-- Whether a change can be written. Changes that go to a log need no journal. -/
def canWrite (c : Connection) : Bool :=
  c.isLogged || c.journal != .directory &&
    match c.place with
    | .inPlace => true
    | .moved => c.content.isEmpty
    | .unreachable => false

/-- Write a database to the file. -/
def write (c : Connection) (d : Database) : Except StoreError Connection :=
  if c.canWrite then
    .ok { c with
      content := .database d (c.changes + 1)
      changes := c.changes + 1
      knowsTables := d.tables.isSome
      journal := if c.isLogged then c.journal else .nothing }
  else .error (.database .statement)

/-- The connection after an insert that failed. A connection that knows the tables of a file that is
empty by now begins to write, with a journal, before it looks for them again. -/
def afterFailure (c : Connection) : Connection :=
  if c.knowsTables && c.settle.content.isEmpty then
    if c.settle.canWrite then { c.visit with journal := .nothing } else c.settle
  else c.visit

/-- Insert a row, which gets the number that is answered. -/
def insert (c : Connection) (change : Database → Except StoreError (Int64 × Database)) :
    Connection × Except StoreError Int64 :=
  match c.read.bind change with
  | .error e => (c.afterFailure, .error e)
  | .ok (id, d) =>
    match c.visit.write d with
    | .error e => (c.afterFailure, .error e)
    | .ok c => ({ c with lastId := id }, .ok id)

/-- Make sure that the table of versions exists. -/
def ensureVersions (c : Connection) (d : Database) : Except StoreError (Connection × Database) := do
  if d.versions.isSome then return (c, d)
  return (← c.write d.withVersions, d.withVersions)

/-- Create the tables of streams and records if no version is recorded. -/
def ensureTables (c : Connection) (d : Database) : Except StoreError Connection := do
  if ← d.needsTables then
    let c ← c.write (← d.createTables)
    return { c with lastId := schemaVersion }
  return c

/-- Bring the schema to the supported version. The table of versions stays also when the rest
fails. -/
def createSchema (c : Connection) : Connection × Except StoreError Unit :=
  match c.requireWritable with
  | .error e => (c, .error e)
  | .ok () =>
    match c.read.bind c.visit.ensureVersions with
    | .error e => (c.visit, .error e)
    | .ok (c, d) =>
      match c.ensureTables d with
      | .error e => (c, .error e)
      | .ok c => (c, .ok ())

/-- Make ready for records. As long as the connection knows the tables, or keeps the statement, it
does not look at the file. -/
def prepare (c : Connection) : Connection × Except StoreError Unit :=
  match c.requireWritable with
  | .error e => (c, .error e)
  | .ok () =>
    if c.isPrepared || c.knowsTables then ({ c with isPrepared := true }, .ok ())
    else
      match c.read.bind Database.requireTables with
      | .error e => (c.visit, .error e)
      | .ok _ => ({ c.visit with isPrepared := true }, .ok ())

/-- Insert a stream. -/
def insertStream (c : Connection) (descriptor : StreamDescriptor) (nonce : Nonce)
    (digest : Digest) : Connection × Except StoreError StreamId :=
  match c.requireWritable with
  | .error e => (c, .error e)
  | .ok () =>
    let (c, answer) := c.insert fun d => do
      let t ← d.requireTables
      let (id, t) ← t.addStream descriptor nonce.bytes digest.bytes
      return (id.number, { d with tables := some t })
    (c, answer.map StreamId.mk)

/-- Insert a record. -/
def insertRecord (c : Connection) (stream : StreamId) (timestamp : Int64) (payload : Bytes)
    (digest : Digest) : Connection × Except StoreError Unit :=
  match c.prepare with
  | (c, .error e) => (c, .error e)
  | (c, .ok ()) =>
    let (c, answer) := c.insert fun d => do
      let t ← d.requireTables
      let (id, t) ← t.addRecord stream timestamp payload digest.bytes
      return (id, { d with tables := some t })
    (c, answer.map fun _ => ())

/-- Make a change that is none of the store's: the count of changed rows, unless it is refused. -/
def edit (c : Connection) (edit : Database.Edit) : Connection × Option Nat :=
  match c.read with
  | .error _ => (c.visit, none)
  | .ok d =>
    match d.edit edit with
    | none => (c.visit, none)
    | some (changed, rows) =>
      if changed = d then (c.visit, some rows)
      else
        match c.visit.write changed with
        | .error _ => (c.visit, none)
        | .ok c => (c, some rows)

/-! ### Answers -/

/-- The tables that queries read. -/
def query (c : Connection) : Except StoreError Tables := c.read.bind Database.requireTables

/-- What the database takes in its file. -/
def size (c : Connection) : Except StoreError UInt64 := do
  let d ← c.read
  return if c.settle.content.isEmpty then 0 else d.size

end Connection

end SealedLog

import SealedLog.Proofs.Store.Changes

/-!
# Databases in good order

A connection to a database that was written to, with its file in its place and nothing unfinished
beside it, carries out every statement: what it answers and leaves is what the tables answer and
become. Another kind of connection may refuse.

* `Connection.Unhindered`: the file is in its place, and nothing beside it is unfinished;
* `Connection.Steady`: the connection is in good order, and this is its database;
* `Steady.settle`, `read`, `visit`, `write`: how statements begin and end;
* `Connection.Ready`: it can be written to, and these are its tables;
* `Ready.createSchema`, `prepare`, `insertStream`, `insertRecord`: what changes come to;
* `Store.Presents`: what a store with such a database answers;
* `Connection.createSchema_of_isEmpty`: a new database is in good order.
-/

namespace SealedLog

/-- A database with the tables of the supported schema. -/
structure Database.Current (d : Database) (t : Tables) : Prop where
  versions : d.versions.isSome = true
  furnished : d.needsTables = .ok false
  tables : d.tables = some t

namespace Database

variable {d : Database} {t : Tables}

theorem Current.requireTables (current : d.Current t) : d.requireTables = .ok t := by
  rw [Database.requireTables, current.tables]

/-- Other rows keep the schema. -/
theorem Current.withTables (current : d.Current t) (t' : Tables) :
    ({ d with tables := some t' } : Database).Current t' :=
  ⟨current.versions, current.furnished, rfl⟩

/-- A stream is added to such a database as to its tables. -/
theorem Current.addStream (current : d.Current t) (s : StreamDescriptor) (n : Nonce) (g : Digest) :
    (do
      let t ← d.requireTables
      let (id, t) ← t.addStream s n.bytes g.bytes
      return (id.number, { d with tables := some t })) =
    (t.addStream s n.bytes g.bytes).map fun p => (p.1.number, { d with tables := some p.2 }) := by
  rw [current.requireTables]
  cases made : t.addStream s n.bytes g.bytes <;> simp only [bind, Except.bind, made] <;> rfl

/-- A record is added to such a database as to its tables. -/
theorem Current.addRecord (current : d.Current t) (stream : StreamId) (timestamp : Int64)
    (payload : Bytes) (digest : Digest) :
    (do
      let t ← d.requireTables
      let (id, t) ← t.addRecord stream timestamp payload digest.bytes
      return (id, { d with tables := some t })) =
    (t.addRecord stream timestamp payload digest.bytes).map
      fun p => (p.1, { d with tables := some p.2 }) := by
  rw [current.requireTables]
  cases made : t.addRecord stream timestamp payload digest.bytes <;>
    simp only [bind, Except.bind, made] <;> rfl

theorem Current.version (current : d.Current t) :
    d.version = .ok schemaVersion := by
  obtain ⟨version, said, furnished⟩ := Except.bind_eq_ok_iff.1 current.furnished
  rw [said]
  by_cases newer : schemaVersion < version
  · rw [if_pos newer] at furnished
    cases furnished
  · rw [if_neg newer] at furnished
    have older : ¬ version < schemaVersion := of_decide_eq_false (Except.ok.inj furnished)
    rw [Int64.le_antisymm (Int64.not_lt.1 newer) (Int64.not_lt.1 older)]

end Database

namespace Connection

variable {c : Connection} {d : Database} {t : Tables}

/-- The file is in its place, and nothing beside it is unfinished. -/
structure Unhindered (c : Connection) : Prop where
  journal : c.journal = .nothing
  log : c.log.isSeen = false
  direct : c.isLogged = false
  place : c.place = .inPlace

namespace Unhindered

theorem clearJournal (unhindered : c.Unhindered) : c.clearJournal = c := by
  unfold Connection.clearJournal
  rw [unhindered.journal]
  split_ifs <;> rfl

theorem isBlocked (unhindered : c.Unhindered) : c.isBlocked = false := by
  have noLog : (c.log == .directory) = false := by
    rw [beq_eq_false_iff_ne]
    intro h
    have unseen := unhindered.log
    rw [h] at unseen
    cases unseen
  simp [Connection.isBlocked, noLog, unhindered.journal, unhindered.place, Companion.isHot]

theorem isJoined (unhindered : c.Unhindered) : c.IsJoined := by
  refine .inr fun log h => ?_
  have unseen := unhindered.log
  rwa [h] at unseen

theorem settle (unhindered : c.Unhindered) : c.settle = { c with hasLooked := true } := by
  rw [settle_of_not_isBlocked] <;> rw [unhindered.clearJournal]
  · rw [joinLog_of_isJoined unhindered.isJoined]
  · exact unhindered.isBlocked

/-- A statement works on what the file holds. -/
theorem read (unhindered : c.Unhindered) : c.read = c.content.database? := by
  have blocked : ({ c with hasLooked := true } : Connection).isBlocked = false :=
    unhindered.isBlocked
  unfold Connection.read
  rw [unhindered.settle, blocked, if_neg Bool.false_ne_true]

theorem canWrite (unhindered : c.Unhindered) : c.canWrite = true := by
  simp [Connection.canWrite, unhindered.direct, unhindered.journal, unhindered.place]

end Unhindered

/-- The file is in its place and holds this database, and nothing beside it is unfinished. -/
structure Steady (c : Connection) (d : Database) : Prop where
  content : ∃ n, c.content = .database d n
  journal : c.journal = .nothing
  log : c.log.isSeen = false
  direct : c.isLogged = false
  place : c.place = .inPlace

namespace Steady

theorem unhindered (steady : c.Steady d) : c.Unhindered :=
  ⟨steady.journal, steady.log, steady.direct, steady.place⟩

theorem settle (steady : c.Steady d) : c.settle = { c with hasLooked := true } :=
  steady.unhindered.settle

theorem read (steady : c.Steady d) : c.read = .ok d := by
  obtain ⟨n, content⟩ := steady.content
  rw [steady.unhindered.read, content]
  rfl

theorem visit (steady : c.Steady d) :
    c.visit = { c with hasLooked := true, knowsTables := d.tables.isSome } := by
  rw [visit_of_read steady.read, steady.settle]

theorem steady_visit (steady : c.Steady d) : c.visit.Steady d := by
  rw [steady.visit]
  exact ⟨steady.content, steady.journal, steady.log, steady.direct, steady.place⟩

/-- What is written is what the file holds from then on. -/
theorem write (steady : c.Steady d) (d' : Database) : ∃ c', c.write d' = .ok c' ∧
    c'.Steady d' ∧ c'.mode = c.mode ∧ c'.hasLooked = c.hasLooked := by
  unfold Connection.write
  rw [if_pos steady.unhindered.canWrite]
  exact ⟨_, rfl, ⟨⟨_, rfl⟩, by simp [steady.direct], steady.log, steady.direct, steady.place⟩, rfl,
    rfl⟩

theorem query (steady : c.Steady d) (current : d.Current t) : c.query = .ok t := by
  unfold Connection.query
  rw [steady.read]
  exact current.requireTables

theorem tables (steady : c.Steady d) (current : d.Current t) : c.tables = t :=
  tables_of_query (steady.query current)

/-- A refused insert leaves the database as it is. -/
theorem insert_of_error (steady : c.Steady d)
    {change : Database → Except StoreError (Int64 × Database)} {e : StoreError}
    (refused : change d = .error e) : c.insert change = (c.visit, .error e) := by
  obtain ⟨n, content⟩ := steady.content
  have after : c.afterFailure = c.visit := by
    unfold afterFailure
    rw [if_neg]
    rw [steady.settle]
    simp [content, Content.isEmpty]
  unfold Connection.insert
  rw [steady.read]
  simp only [Except.bind, refused, after]

theorem insert_of_ok (steady : c.Steady d)
    {change : Database → Except StoreError (Int64 × Database)} {id : Int64} {d' : Database}
    (made : change d = .ok (id, d')) :
    ∃ c', c.insert change = (c', .ok id) ∧ c'.Steady d' ∧ c'.mode = c.mode ∧
      c'.hasLooked = true := by
  obtain ⟨c', written, steady', mode, looked⟩ := steady.steady_visit.write d'
  unfold Connection.insert
  rw [steady.read]
  simp only [Except.bind, made, written]
  rw [steady.visit] at mode looked
  refine ⟨_, rfl, ?_, mode, looked⟩
  exact ⟨steady'.content, steady'.journal, steady'.log, steady'.direct, steady'.place⟩

end Steady

/-! ### Changes -/

/-- The connection has looked at its file, or has what it had before. -/
def Looked (before : Content) (c : Connection) : Prop := c.hasLooked = true ∨ c.content = before

theorem Steady.looked_visit (steady : c.Steady d) (before : Content) : c.visit.Looked before := by
  rw [steady.visit]
  exact .inl rfl

/-- The connection is in good order, can be written to, and has these tables. -/
structure Ready (c : Connection) (t : Tables) : Prop where
  writable : c.mode = .readWrite
  database : ∃ d, c.Steady d ∧ d.Current t

end Connection

/-- The tables after a change, which leaves them as they are if it is refused. -/
def Tables.after {α : Type} (t : Tables) : Except StoreError (α × Tables) → Tables
  | .ok (_, t') => t'
  | .error _ => t

namespace Connection.Ready

variable {c : Connection} {t : Tables}

theorem requireWritable (ready : c.Ready t) : c.requireWritable = .ok () := by
  rw [Connection.requireWritable, ready.writable]
  rfl

theorem visit (ready : c.Ready t) : c.visit.Ready t := by
  obtain ⟨writable, d, steady, current⟩ := ready
  refine ⟨?_, d, steady.steady_visit, current⟩
  rw [steady.visit]
  exact writable

theorem query (ready : c.Ready t) : c.query = .ok t := by
  obtain ⟨d, steady, current⟩ := ready.database
  exact steady.query current

/-- A database of the supported schema is left as it is. -/
theorem createSchema (ready : c.Ready t) : c.createSchema = (c.visit, .ok ()) := by
  obtain ⟨d, steady, current⟩ := ready.database
  have versions : c.visit.ensureVersions d = .ok (c.visit, d) := by
    rw [ensureVersions, if_pos current.versions]
    rfl
  have tables : c.visit.ensureTables d = .ok c.visit := by
    rw [ensureTables, current.furnished]
    rfl
  unfold Connection.createSchema
  rw [ready.requireWritable, steady.read]
  simp only [Except.bind, versions, tables]

theorem withPrepared (ready : c.Ready t) : { c with isPrepared := true }.Ready t := by
  obtain ⟨writable, d, steady, current⟩ := ready
  exact ⟨writable, d,
    ⟨steady.content, steady.journal, steady.log, steady.direct, steady.place⟩, current⟩

theorem prepare (ready : c.Ready t) : ∃ c', c.prepare = (c', .ok ()) ∧ c'.Ready t ∧
    ∀ before, c.Looked before → c'.Looked before := by
  obtain ⟨d, steady, current⟩ := ready.database
  unfold Connection.prepare
  rw [ready.requireWritable]
  dsimp only
  split_ifs
  · exact ⟨_, rfl, ready.withPrepared, fun _ looked => looked⟩
  · rw [steady.read]
    simp only [Except.bind, current.requireTables]
    exact ⟨_, rfl, ready.visit.withPrepared, fun before _ => steady.looked_visit before⟩

/-- An insert comes to what the tables make of it. -/
theorem insert (ready : c.Ready t) {α : Type} {made : Except StoreError (α × Tables)}
    (number : α → Int64) {change : Database → Except StoreError (Int64 × Database)}
    (comes : ∀ d : Database, d.Current t →
      change d = made.map fun p => (number p.1, { d with tables := some p.2 })) :
    ∃ c', c.insert change = (c', made.map fun p => number p.1) ∧ c'.Ready (t.after made) ∧
      ∀ before, c'.Looked before := by
  obtain ⟨d, steady, current⟩ := ready.database
  have here := comes d current
  cases made with
  | error e => exact ⟨c.visit, steady.insert_of_error here, ready.visit, steady.looked_visit⟩
  | ok put =>
    obtain ⟨c', inserted, steady', mode, looked⟩ := steady.insert_of_ok here
    exact ⟨c', inserted, ⟨mode.trans ready.writable, _, steady', current.withTables put.2⟩,
      fun _ => .inl looked⟩

theorem insertStream (ready : c.Ready t) (s : StreamDescriptor) (n : Nonce) (g : Digest) :
    ∃ c', c.insertStream s n g = (c', (t.addStream s n.bytes g.bytes).map Prod.fst) ∧
      c'.Ready (t.after (t.addStream s n.bytes g.bytes)) ∧ ∀ before, c'.Looked before := by
  obtain ⟨c', inserted, ready'⟩ :=
    ready.insert StreamId.number fun _ current => current.addStream s n g
  refine ⟨c', ?_, ready'⟩
  unfold Connection.insertStream
  rw [ready.requireWritable]
  dsimp only
  rw [inserted]
  cases t.addStream s n.bytes g.bytes <;> rfl

theorem insertRecord (ready : c.Ready t) (stream : StreamId) (timestamp : Int64) (payload : Bytes)
    (digest : Digest) :
    ∃ c', c.insertRecord stream timestamp payload digest =
        (c', (t.addRecord stream timestamp payload digest.bytes).map fun _ => ()) ∧
      c'.Ready (t.after (t.addRecord stream timestamp payload digest.bytes)) ∧
      ∀ before, c'.Looked before := by
  obtain ⟨seen, prepared, readySeen, -⟩ := ready.prepare
  obtain ⟨c', inserted, ready'⟩ := readySeen.insert (fun id => id) fun _ current =>
    current.addRecord stream timestamp payload digest
  refine ⟨c', ?_, ready'⟩
  unfold Connection.insertRecord
  rw [prepared]
  dsimp only
  rw [inserted]
  cases t.addRecord stream timestamp payload digest.bytes <;> rfl

end Connection.Ready

/-! ### What databases in good order present -/

/-- No operation of the store fails by itself, and its database is in good order and has these
tables. It may be open for reading alone. -/
structure Store.Presents (s : Store) (t : Tables) : Prop where
  working : s.faults = FaultPlan.none
  database : ∃ c d, s.engine = .connection c ∧ c.Steady d ∧ d.Current t

namespace Store.Presents

variable {s : Store} {t : Tables}

theorem visit (presents : s.Presents t) (method : StoreMethod) : (s.visit method).Presents t := by
  obtain ⟨working, c, d, engine, steady, current⟩ := presents
  unfold Store.visit
  rw [working, engine]
  exact ⟨rfl, c.visit, d, rfl, steady.steady_visit, current⟩

/-- A query says what the tables say. -/
theorem answer {α : Type} {method : StoreMethod} {inMemory : MemoryStore → Except StoreError α}
    (presents : s.Presents t) (said : Tables → α) :
    s.guarded method (match s.engine with
      | .memory m => inMemory m
      | .connection c => c.query.map said) = .ok (said t) := by
  obtain ⟨working, c, d, engine, steady, current⟩ := presents
  rw [guarded, working, engine]
  dsimp only [FaultPlan.none]
  rw [steady.query current]
  rfl

theorem page (presents : s.Presents t) (after : ReadPosition) (limit : Nat) :
    s.page after limit = .ok (t.page after limit) :=
  presents.answer fun t => t.page after limit

theorem streams (presents : s.Presents t) : s.streams = .ok t.streamList :=
  presents.answer Tables.streamList

theorem statistics (presents : s.Presents t) : s.statistics = .ok t.statistics :=
  presents.answer Tables.statistics

theorem size (presents : s.Presents t) : ∃ octets, s.size = .ok octets := by
  obtain ⟨working, c, d, engine, steady, -⟩ := presents
  rw [Store.size, guarded, working, engine]
  dsimp only [FaultPlan.none]
  rw [Connection.size, steady.read]
  exact ⟨_, rfl⟩

theorem anchors (presents : s.Presents t) : s.anchors = t.anchorList := by
  obtain ⟨working, c, d, engine, steady, current⟩ := presents
  rw [Store.anchors, guarded, working, engine]
  dsimp only [FaultPlan.none]
  rw [steady.query current]
  rfl

theorem chain (presents : s.Presents t) (id : StreamId) : s.chain id = t.chain id := by
  obtain ⟨working, c, d, engine, steady, current⟩ := presents
  rw [Store.chain, guarded, working, engine]
  dsimp only [FaultPlan.none]
  rw [steady.query current]
  rfl

theorem recordCount (presents : s.Presents t) : s.recordCount = t.records.length := by
  obtain ⟨-, c, d, engine, steady, current⟩ := presents
  rw [Store.recordCount, engine]
  dsimp only
  rw [steady.query current]
  rfl

theorem tables (presents : s.Presents t) : s.tables = t := by
  obtain ⟨-, c, d, engine, steady, current⟩ := presents
  rw [tables_connection engine, steady.tables current]

end Store.Presents

/-! ### New databases -/

/-- A database that has just been created. -/
def Database.created : Database := { versions := some [schemaVersion], tables := some {} }

theorem Database.current_created : Database.created.Current {} := ⟨rfl, rfl, rfl⟩

namespace Connection

variable {c c' : Connection} {d : Database}

theorem clearJournal_of_directory (h : c.journal = .directory) : c.clearJournal = c := by
  unfold clearJournal
  rw [h]
  split_ifs <;> rfl

/-- Beside an empty file no log is taken up. -/
theorem joinLog_of_isEmpty (empty : c.content.isEmpty = true) (direct : c.isLogged = false)
    (log : c.log ≠ .directory) :
    c.joinLog = c ∧ c.log.isSeen = false ∨ c.joinLog = { c with log := .nothing } := by
  unfold joinLog
  rw [if_neg (by simp [direct])]
  cases h : c.log with
  | nothing => exact .inl ⟨rfl, rfl⟩
  | directory => exact absurd h log
  | file log =>
    dsimp only
    cases octets : log.hasOctets with
    | false => exact .inl ⟨rfl, octets⟩
    | true => exact .inr (if_pos empty)

/-- A statement on an empty file begins with nothing unfinished beside it. -/
theorem visit_of_isEmpty (empty : c.content = .plain []) (direct : c.isLogged = false)
    (h : c.read = .ok d) : d = {} ∧ c.visit.content = .plain [] ∧ c.visit.isLogged = false ∧
      c.visit.place = c.place ∧ c.visit.mode = c.mode ∧ c.visit.hasLooked = true ∧
      (c.visit.journal = c.journal ∨ c.journal ≠ .directory) ∧ c.log ≠ .directory ∧
      (c.visit.log = .nothing ∨ c.visit.log = c.log ∧ c.log.isSeen = false) := by
  have isEmpty : c.content.isEmpty = true := by rw [empty]; rfl
  -- with a directory in the place of the log, nothing could have been read
  have isOpen : c.clearJournal.isBlocked = false := by
    rw [← Bool.not_eq_true]
    intro blocked
    rw [read, settle_of_isBlocked blocked, if_pos blocked] at h
    cases h
  have none : d = {} := by
    have there := (of_read_eq_ok h).2
    rw [settle_content_of_isEmpty isEmpty, empty] at there
    exact (Except.ok.inj there).symm
  have kept : c.clearJournal.journal = c.journal ∨ c.journal ≠ .directory := by
    refine or_iff_not_imp_right.2 fun directory => ?_
    rw [clearJournal_of_directory (not_not.1 directory)]
  obtain ⟨content, logged, place, mode, log⟩ : c.clearJournal.content = c.content ∧
      c.clearJournal.isLogged = c.isLogged ∧ c.clearJournal.place = c.place ∧
      c.clearJournal.mode = c.mode ∧ c.clearJournal.log = c.log := by
    rcases c.clearJournal_eq_or with e | e <;> rw [e] <;> exact ⟨rfl, rfl, rfl, rfl, rfl⟩
  rw [empty] at content
  rw [direct] at logged
  have noDirectory : c.log ≠ .directory := by
    intro directory
    rw [directory] at log
    simp [isBlocked, logged, log] at isOpen
  have joined := joinLog_of_isEmpty (c := c.clearJournal) (by rw [content]; rfl) logged
    (by rwa [log])
  rw [visit_of_read h, settle_of_not_isBlocked isOpen]
  rw [log] at joined
  rcases joined with ⟨same, unseen⟩ | gone
  · rw [same]
    exact ⟨none, content, logged, place, mode, rfl, kept, noDirectory, .inr ⟨log, unseen⟩⟩
  · rw [gone]
    exact ⟨none, content, logged, place, mode, rfl, kept, noDirectory, .inl rfl⟩

theorem write_eq_ok (h : c.write d = .ok c') : c.canWrite = true ∧ c' = { c with
    content := .database d (c.changes + 1)
    changes := c.changes + 1
    knowsTables := d.tables.isSome
    journal := if c.isLogged then c.journal else .nothing } := by
  unfold write at h
  by_cases can : c.canWrite = true
  · rw [if_pos can] at h
    exact ⟨can, (Except.ok.inj h).symm⟩
  · rw [if_neg can] at h
    cases h

/-- In an empty database the table of versions is written. -/
theorem ensureVersions_of_empty (c : Connection) : c.ensureVersions {} =
    (c.write { versions := some [] }).map fun c => (c, { versions := some [] }) := by
  show (do return (← c.write { versions := some [] }, _)) = _
  cases c.write { versions := some [] } <;> rfl

/-- Without a version the tables are written. -/
theorem ensureTables_of_versions (c : Connection) : c.ensureTables { versions := some [] } =
    (c.write .created).map fun c => { c with lastId := schemaVersion } := by
  show (do
    let c ← c.write .created
    return { c with lastId := schemaVersion }) = _
  cases c.write .created <;> rfl

/-- What a schema that is created in an empty database has gone through: the table of versions is
written first, and then the others. -/
theorem writes_of_createSchema (writable : c.mode = .readWrite) (reads : c.read = .ok {})
    (h : c.createSchema = (c', .ok ())) : ∃ first second,
      c.visit.write { versions := some [] } = .ok first ∧ first.write .created = .ok second ∧
      c' = { second with lastId := schemaVersion } := by
  rw [createSchema, requireWritable, writable, reads] at h
  cases versions : c.visit.write { versions := some [] } with
  | error e =>
    simp [Except.bind, Except.map, ensureVersions_of_empty, versions, AccessMode.isReadOnly] at h
  | ok first =>
    cases tables : first.write .created with
    | error e =>
      simp [Except.bind, Except.map, ensureVersions_of_empty, versions, ensureTables_of_versions,
        tables, AccessMode.isReadOnly] at h
    | ok second =>
      simp only [Except.bind, Except.map, ensureVersions_of_empty, versions,
        ensureTables_of_versions, tables, AccessMode.isReadOnly] at h
      exact ⟨first, second, rfl, tables, (Prod.mk.inj h).1.symm⟩

/-- **An empty file gets the schema of a database** once this succeeds, and nothing unfinished is
beside it. -/
theorem createSchema_of_isEmpty (empty : c.content = .plain []) (direct : c.isLogged = false)
    (h : c.createSchema = (c', .ok ())) :
    (∃ d, c'.Steady d ∧ d.Current {}) ∧ c'.mode = c.mode ∧ c.mode = .readWrite ∧
      c'.hasLooked = true ∧ c.place = .inPlace ∧ c.journal ≠ .directory ∧ c.log ≠ .directory ∧
      (c'.log = .nothing ∨ c'.log = c.log ∧ c.log.isSeen = false) := by
  cases writable : c.mode with
  | readOnly =>
    rw [createSchema, requireWritable, writable] at h
    cases h
  | readWrite =>
    cases reads : c.read with
    | error e =>
      rw [createSchema, requireWritable, writable, reads] at h
      cases h
    | ok d =>
      obtain ⟨rfl, content, logged, place, mode, looked, kept, noDirectory, log⟩ :=
        visit_of_isEmpty empty direct reads
      obtain ⟨first, second, versions, tables, rfl⟩ := writes_of_createSchema writable reads h
      obtain ⟨canFirst, rfl⟩ := write_eq_ok versions
      obtain ⟨canSecond, rfl⟩ := write_eq_ok tables
      simp only [canWrite, logged, Bool.false_or, Bool.and_eq_true, bne_iff_ne]
        at canFirst canSecond
      have inPlace : c.visit.place = .inPlace := by
        cases h : c.visit.place <;> simp [h, Content.isEmpty] at canSecond ⊢
      have journal : c.journal ≠ .directory := by
        rcases kept with same | other
        · rw [← same]
          exact canFirst.1
        · exact other
      have unseen : c.visit.log.isSeen = false := by
        rcases log with gone | ⟨same, unseen⟩
        · rw [gone]
          rfl
        · rwa [same]
      exact ⟨⟨.created, ⟨⟨_, rfl⟩, by simp [logged], unseen, logged, inPlace⟩,
        Database.current_created⟩, mode.trans writable, rfl, looked, place ▸ inPlace, journal,
        noDirectory, log⟩

end Connection

end SealedLog

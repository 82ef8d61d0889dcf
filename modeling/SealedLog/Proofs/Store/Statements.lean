import SealedLog.Proofs.Store.Settled

/-!
# What every statement keeps

Every statement is put together from a few moves: to look at what stands beside the file, to write a
database once the file was read, and to note what is known. What each move keeps, every statement
keeps.

* `Connection.Lasting`: what the moves keep;
* `Lasting.createSchema`, `prepare`, `insertStream`, `insertRecord`: so do the statements;
* `Store.Viewed`, `Store.Lasting`: what is kept by looking, and by every operation that sessions ask
  for;
* `Lasting.store`, `Lasting.connected`, `Lasting.store_createSchema`: what lasts of connections
  lasts of stores;
* `createSchema_succeeds`: where the schema of an empty file can be created.
-/

namespace SealedLog

namespace Connection

theorem visit_eq (c : Connection) : ∃ knows, c.visit = { c.settle with knowsTables := knows } := by
  unfold visit
  cases c.read with
  | error e => exact ⟨c.settle.knowsTables, rfl⟩
  | ok d => exact ⟨_, rfl⟩

/-- What holds of a connection through every statement, and what holds of it in addition once its
file was read. -/
structure Lasting (P Q : Connection → Prop) : Prop where
  settle : ∀ {c : Connection}, P c → P c.settle
  read : ∀ {c : Connection} {d : Database}, P c → c.read = .ok d → Q c.settle
  weaken : ∀ {c : Connection}, Q c → P c
  write : ∀ {c c' : Connection} {d : Database}, Q c → c.write d = .ok c' → Q c'
  /-- What the connection knows is of no concern. -/
  noted : ∀ {c : Connection} (id : Int64) (knows prepared : Bool), P c →
    P { c with lastId := id, knowsTables := knows, isPrepared := prepared }
  readNoted : ∀ {c : Connection} (id : Int64) (knows prepared : Bool), Q c →
    Q { c with lastId := id, knowsTables := knows, isPrepared := prepared }
  /-- A change of an empty file may have begun and then failed. -/
  begun : ∀ {c : Connection}, P c → c.content.isEmpty = true → c.canWrite = true →
    P { c with journal := .nothing }

namespace Lasting

variable {P Q : Connection → Prop} {c c' : Connection} {d d' : Database}

theorem visit (lasting : Lasting P Q) (h : P c) : P c.visit := by
  obtain ⟨knows, same⟩ := c.visit_eq
  rw [same]
  exact lasting.noted _ knows _ (lasting.settle h)

theorem visit_of_read (lasting : Lasting P Q) (h : P c) (reads : c.read = .ok d) : Q c.visit := by
  obtain ⟨knows, same⟩ := c.visit_eq
  rw [same]
  exact lasting.readNoted _ knows _ (lasting.read h reads)

theorem afterFailure (lasting : Lasting P Q) (h : P c) : P c.afterFailure := by
  unfold Connection.afterFailure
  split_ifs with known canWrite
  · obtain ⟨knows, same⟩ := c.visit_eq
    have empty : c.settle.content.isEmpty = true := (Bool.and_eq_true_iff.1 known).2
    rw [same]
    exact lasting.begun (lasting.noted _ knows _ (lasting.settle h)) empty canWrite
  · exact lasting.settle h
  · exact lasting.visit h

theorem insert (lasting : Lasting P Q) (h : P c)
    (change : Database → Except StoreError (Int64 × Database)) : P (c.insert change).1 := by
  unfold Connection.insert
  cases reads : c.read with
  | error e => exact lasting.afterFailure h
  | ok d =>
    have seen := lasting.visit_of_read h reads
    cases made : change d with
    | error e =>
      simp only [Except.bind, made]
      exact lasting.afterFailure h
    | ok new =>
      cases written : c.visit.write new.2 with
      | error e =>
        simp only [Except.bind, made, written]
        exact lasting.afterFailure h
      | ok c' =>
        simp only [Except.bind, made, written]
        exact lasting.weaken (lasting.readNoted new.1 _ _ (lasting.write seen written))

theorem ensureTables (lasting : Lasting P Q) (h : Q c) (done : c.ensureTables d = .ok c') :
    Q c' := by
  unfold Connection.ensureTables at done
  obtain ⟨needed, -, done⟩ := Except.bind_eq_ok_iff.1 done
  cases needed with
  | false =>
    cases done
    exact h
  | true =>
    obtain ⟨d', -, done⟩ := Except.bind_eq_ok_iff.1 done
    obtain ⟨c'', written, done⟩ := Except.bind_eq_ok_iff.1 done
    cases done
    exact lasting.readNoted _ _ _ (lasting.write h written)

theorem createSchema (lasting : Lasting P Q) (h : P c) : P c.createSchema.1 := by
  unfold Connection.createSchema
  cases c.requireWritable with
  | error e => exact h
  | ok _ =>
    dsimp only
    cases reads : c.read with
    | error e => exact lasting.visit h
    | ok d =>
      have seen := lasting.visit_of_read h reads
      cases ensured : c.visit.ensureVersions d with
      | error e =>
        simp only [Except.bind, ensured]
        exact lasting.visit h
      | ok made =>
        -- the versions are there, or the first of two changes has put them there
        obtain ⟨c₁, d₁⟩ := made
        have first : Q c₁ := by
          obtain ⟨rfl, -⟩ | ⟨written, -⟩ := ensureVersions_cases ensured
          · exact seen
          · exact lasting.write seen written
        simp only [Except.bind, ensured]
        cases done : c₁.ensureTables d₁ with
        | error e => exact lasting.weaken first
        | ok c₂ => exact lasting.weaken (lasting.ensureTables first done)

theorem prepare (lasting : Lasting P Q) (h : P c) : P c.prepare.1 := by
  unfold Connection.prepare
  cases c.requireWritable with
  | error e => exact h
  | ok _ =>
    dsimp only
    split_ifs
    · exact lasting.noted _ _ true h
    · cases c.read.bind Database.requireTables with
      | error e => exact lasting.visit h
      | ok t => exact lasting.noted _ _ true (lasting.visit h)

theorem insertStream (lasting : Lasting P Q) (h : P c) (s : StreamDescriptor) (n : Nonce)
    (g : Digest) : P (c.insertStream s n g).1 := by
  unfold Connection.insertStream
  cases c.requireWritable with
  | error e => exact h
  | ok _ => exact lasting.insert h _

theorem insertRecord (lasting : Lasting P Q) (h : P c) (stream : StreamId) (timestamp : Int64)
    (payload : Bytes) (g : Digest) : P (c.insertRecord stream timestamp payload g).1 := by
  have ready := lasting.prepare h
  unfold Connection.insertRecord
  rcases prepared : c.prepare with ⟨c', e | _⟩ <;> rw [prepared] at ready
  · exact ready
  · exact lasting.insert ready _

end Lasting

end Connection

/-! ### Operations of stores -/

/-- What holds of a store, and of what is left of it when it is looked at. -/
structure Store.Viewed (P : Store → Prop) : Prop where
  visit : ∀ {store : Store} (method : StoreMethod), P store → P (store.visit method)

/-- What holds of a store, and of what is left of it by every operation that sessions ask for. -/
structure Store.Lasting (P : Store → Prop) : Prop extends Store.Viewed P where
  prepare : ∀ {store : Store}, P store → P store.prepare.1
  insertStream : ∀ {store : Store} (d : StreamDescriptor) (n : Nonce) (g : Digest), P store →
    P (store.insertStream d n g).1
  insertRecord : ∀ {store : Store} (id : StreamId) (timestamp : Int64) (payload : Bytes)
    (g : Digest), P store → P (store.insertRecord id timestamp payload g).1

/-- A change of a store keeps what it keeps of a connection. -/
theorem Store.change_keeps {P : Connection → Prop} {s : Store}
    (h : ∀ c, s.engine = .connection c → P c) {α : Type} {method : StoreMethod}
    {inMemory : MemoryStore → Except StoreError (α × MemoryStore)}
    {connected : Connection → Connection × Except StoreError α}
    (kept : ∀ c, P c → P (connected c).1) :
    ∀ c, (s.change method inMemory connected).1.engine = .connection c → P c := by
  unfold Store.change
  cases s.faults method with
  | some e => exact h
  | none =>
    cases engine : s.engine with
    | memory m =>
      dsimp only
      cases inMemory m with
      | error e => exact h
      | ok made => exact fun c other => nomatch other
    | connection c =>
      intro c' same
      cases same
      exact kept c (h c engine)

/-- A change of a store that has a connection. -/
theorem Store.change_connected {P : Connection → Prop} {s : Store}
    (h : ∃ c, s.engine = .connection c ∧ P c) {α : Type} {method : StoreMethod}
    {inMemory : MemoryStore → Except StoreError (α × MemoryStore)}
    {connected : Connection → Connection × Except StoreError α}
    (kept : ∀ c, P c → P (connected c).1) :
    ∃ c, (s.change method inMemory connected).1.engine = .connection c ∧ P c := by
  obtain ⟨c, engine, here⟩ := h
  unfold Store.change
  cases s.faults method with
  | some e => exact ⟨c, engine, here⟩
  | none =>
    rw [engine]
    exact ⟨_, rfl, kept c here⟩

namespace Connection.Lasting

variable {P Q : Connection → Prop}

/-- **What lasts of connections lasts of stores.** -/
theorem store (lasting : Lasting P Q) :
    Store.Lasting fun s => ∀ c, s.engine = .connection c → P c where
  prepare h := Store.change_keeps h fun _ => lasting.prepare
  insertStream d n g h := Store.change_keeps h fun _ here => lasting.insertStream here d n g
  insertRecord id timestamp payload g h :=
    Store.change_keeps h fun _ here => lasting.insertRecord here id timestamp payload g
  visit {s} method h := by
    unfold Store.visit
    cases s.faults method with
    | some e => exact h
    | none =>
      cases engine : s.engine with
      | memory m => exact h
      | connection c =>
        intro c' same
        cases same
        exact lasting.visit (h c engine)

/-- A store with a connection keeps one. -/
theorem connected (lasting : Lasting P Q) :
    Store.Lasting fun s => ∃ c, s.engine = .connection c ∧ P c where
  prepare h := Store.change_connected h fun _ => lasting.prepare
  insertStream d n g h := Store.change_connected h fun _ here => lasting.insertStream here d n g
  insertRecord id timestamp payload g h :=
    Store.change_connected h fun _ here => lasting.insertRecord here id timestamp payload g
  visit {s} method h := by
    obtain ⟨c, engine, here⟩ := h
    unfold Store.visit
    cases s.faults method with
    | some e => exact ⟨c, engine, here⟩
    | none =>
      rw [engine]
      exact ⟨_, rfl, lasting.visit here⟩

theorem connected_createSchema (lasting : Lasting P Q) {s : Store}
    (h : ∃ c, s.engine = .connection c ∧ P c) :
    ∃ c, s.createSchema.1.engine = .connection c ∧ P c :=
  Store.change_connected h fun _ => lasting.createSchema

theorem store_createSchema (lasting : Lasting P Q) {s : Store}
    (h : ∀ c, s.engine = .connection c → P c) :
    ∀ c, s.createSchema.1.engine = .connection c → P c :=
  Store.change_keeps h fun _ => lasting.createSchema

end Connection.Lasting

/-! ### A schema in an empty file -/

namespace Connection

variable {c : Connection}

theorem createSchema_of_writes {first second : Connection} (writable : c.mode = .readWrite)
    (reads : c.read = .ok {}) (versions : c.visit.write { versions := some [] } = .ok first)
    (tables : first.write .created = .ok second) :
    c.createSchema = ({ second with lastId := schemaVersion }, .ok ()) := by
  rw [createSchema, requireWritable, writable, reads]
  simp only [Except.bind, Except.map, ensureVersions_of_empty, versions, ensureTables_of_versions,
    tables, AccessMode.isReadOnly, Bool.false_eq_true, if_false]

theorem write_of_canWrite (can : c.canWrite = true) (d : Database) :
    c.write d = .ok { c with
      content := .database d (c.changes + 1)
      changes := c.changes + 1
      knowsTables := d.tables.isSome
      journal := if c.isLogged then c.journal else .nothing } :=
  if_pos can

/-- An empty file can be read unless a directory stands in the place of the log. -/
theorem read_of_isEmpty (empty : c.content = .plain []) (direct : c.isLogged = false)
    (log : c.log ≠ .directory) : c.read = .ok {} := by
  have isEmpty : c.content.isEmpty = true := by rw [empty]; rfl
  obtain ⟨logged, same⟩ : c.clearJournal.isLogged = false ∧ c.clearJournal.log = c.log ∧
      c.clearJournal.content = c.content := by
    rcases c.clearJournal_eq_or with e | e <;> rw [e] <;> exact ⟨direct, rfl, rfl⟩
  have unblocked : c.clearJournal.isBlocked = false := by
    simp [isBlocked, same.1, same.2, isEmpty, log]
  have isOpen : c.settle.isBlocked = false := by
    rw [settle_of_not_isBlocked unblocked]
    obtain ⟨kept, -⟩ | gone := joinLog_of_isEmpty (c := c.clearJournal) (by rw [same.2, isEmpty])
      logged (by rwa [same.1])
    · rw [kept]
      exact unblocked
    · rw [gone]
      simp [isBlocked, same.2, isEmpty]
  rw [read, isOpen, if_neg Bool.false_ne_true, settle_content_of_isEmpty isEmpty, empty]
  rfl

/-- **A schema can be created in an empty file** that is in its place, with no directory in the
place of its journal or its log. -/
theorem createSchema_succeeds (empty : c.content = .plain []) (direct : c.isLogged = false)
    (writable : c.mode = .readWrite) (inPlace : c.place = .inPlace)
    (journal : c.journal ≠ .directory) (log : c.log ≠ .directory) :
    ∃ c', c.createSchema = (c', .ok ()) := by
  have reads := read_of_isEmpty empty direct log
  obtain ⟨-, content, logged, place, -⟩ := visit_of_isEmpty empty direct reads
  have noDirectory : c.visit.journal ≠ .directory := by
    obtain ⟨knows, same⟩ := c.visit_eq
    rw [same]
    obtain kept | ⟨-, gone⟩ := c.beside_settle.journal
    · exact kept ▸ journal
    · rw [gone]
      exact nofun
  have can : c.visit.canWrite = true := by
    simp [canWrite, logged, noDirectory, place, inPlace]
  have versions := write_of_canWrite can { versions := some [] }
  refine ⟨_, createSchema_of_writes writable reads versions (write_of_canWrite ?_ _)⟩
  simp [canWrite, logged, place, inPlace]

end Connection

end SealedLog

import SealedLog.Proofs.Store.Settled

/-!
# Stores that differ in what they know

A statement that fails has looked at what stands beside the file and may have come to know the
tables, but it has changed nothing. The connection after it and the one before it are twins:
whatever both are asked next, they answer alike and stay twins. The same holds of stores.

* `Connection.Twin`: the connections look at the same file and would write alike;
* `Connection.twin_visit`, `twin_afterFailure`, `twin_prepare`: what leaves a twin;
* `Twin.insertStream`, `insertRecord`, `createSchema`, `query`, `size`: twins answer alike;
* `Store.Twin`: the same of stores; `Store.twin_change_of_error`: what a refusal leaves.
-/

namespace SealedLog

namespace Connection

variable {c c' r r' : Connection} {d : Database}

/-! ### Twins -/

/-- Once they have looked, the connections stand before the same file with the same beside it, as
far as it matters to reading and writing. What they know of it may differ. -/
structure Twin (c c' : Connection) : Prop where
  mode : c.mode = c'.mode
  place : c.place = c'.place
  changes : c.changes = c'.changes
  content : c.settle.content = c'.settle.content
  isLogged : c.settle.isLogged = c'.settle.isLogged
  log : c.settle.log = c'.settle.log
  isBlocked : c.settle.isBlocked = c'.settle.isBlocked
  canWrite : c.settle.canWrite = c'.settle.canWrite

namespace Twin

theorem refl (c : Connection) : c.Twin c := ⟨rfl, rfl, rfl, rfl, rfl, rfl, rfl, rfl⟩

theorem symm (twin : c.Twin c') : c'.Twin c :=
  ⟨twin.mode.symm, twin.place.symm, twin.changes.symm, twin.content.symm, twin.isLogged.symm,
    twin.log.symm, twin.isBlocked.symm, twin.canWrite.symm⟩

theorem trans (twin : c.Twin c') (next : c'.Twin r) : c.Twin r :=
  ⟨twin.mode.trans next.mode, twin.place.trans next.place, twin.changes.trans next.changes,
    twin.content.trans next.content, twin.isLogged.trans next.isLogged, twin.log.trans next.log,
    twin.isBlocked.trans next.isBlocked, twin.canWrite.trans next.canWrite⟩

/-- Connections that have looked are twins once their files and what is beside them agree. -/
theorem of_settled (settled : c.Settled) (settled' : c'.Settled) (mode : c.mode = c'.mode)
    (place : c.place = c'.place) (changes : c.changes = c'.changes)
    (content : c.content = c'.content) (isLogged : c.isLogged = c'.isLogged)
    (log : c.log = c'.log) (canWrite : c.canWrite = c'.canWrite) : c.Twin c' := by
  have isOpen : c.isBlocked = c'.isBlocked := settled.isOpen.trans settled'.isOpen.symm
  refine ⟨mode, place, changes, ?_, ?_, ?_, ?_, ?_⟩ <;> rw [settled.settle, settled'.settle]
  · exact content
  · exact isLogged
  · exact log
  · exact isOpen
  · exact canWrite

theorem read (twin : c.Twin c') : c.read = c'.read := by
  unfold Connection.read
  rw [twin.isBlocked, twin.content]

theorem query (twin : c.Twin c') : c.query = c'.query := by
  unfold Connection.query
  rw [twin.read]

theorem size (twin : c.Twin c') : c.size = c'.size := by
  unfold Connection.size
  rw [twin.read, twin.content]

theorem requireWritable (twin : c.Twin c') : c.requireWritable = c'.requireWritable := by
  unfold Connection.requireWritable
  rw [twin.mode]

end Twin

/-! ### What leaves a twin -/

theorem twin_settle (c : Connection) : c.settle.Twin c := by
  obtain ⟨mode, place, changes⟩ := c.settle_keeps
  refine ⟨mode, place, changes, ?_, ?_, ?_, ?_, ?_⟩ <;> rw [settle_settle]

/-- What a connection knows, and the number that it gave out last, make no difference. -/
theorem twin_with (c : Connection) (id : Int64) (knows prepared : Bool) :
    { c with lastId := id, knowsTables := knows, isPrepared := prepared }.Twin c := by
  refine ⟨rfl, rfl, rfl, ?_, ?_, ?_, ?_, ?_⟩ <;> rw [settle_with] <;> rfl

/-- Looking leaves a twin. -/
theorem twin_visit (c : Connection) : c.visit.Twin c := by
  unfold visit
  cases c.read with
  | error e => exact c.twin_settle
  | ok d =>
    exact (c.settle.twin_with c.settle.lastId d.tables.isSome c.settle.isPrepared).trans
      c.twin_settle

/-- A journal that is begun beside an empty file makes no difference to it. -/
theorem twin_of_isEmpty (empty : c.settle.content.isEmpty = true)
    (writes : c.settle.canWrite = true) : { c.settle with journal := .nothing }.Twin c := by
  refine Twin.trans ?_ c.twin_settle
  have blocked : { c.settle with journal := .nothing }.isBlocked = c.settle.isBlocked := by
    simp [isBlocked, empty]
  have cleared : { c.settle with journal := .nothing }.clearJournal =
      { c.settle with journal := .nothing } := by
    rw [clearJournal_eq, if_neg (by simp [clearsJournal])]
  have can : { c.settle with journal := .nothing }.canWrite = c.settle.canWrite := by
    rw [writes]
    unfold canWrite at writes ⊢
    cases logged : c.settle.isLogged with
    | true => rfl
    | false =>
      rw [logged] at writes
      simpa using (Bool.and_eq_true_iff.1 writes).2
  cases isBlocked : c.clearJournal.isBlocked with
  | true =>
    -- both are kept from their file, and stay as they are
    have kept := settle_of_isBlocked isBlocked
    have blocked' : c.settle.isBlocked = true := by rwa [kept]
    have still : { c.settle with journal := .nothing }.settle =
        { c.settle with journal := .nothing } := by
      rw [settle_of_isBlocked, cleared]
      rw [cleared, blocked, blocked']
    refine ⟨rfl, rfl, rfl, ?_, ?_, ?_, ?_, ?_⟩ <;> rw [still, settle_settle]
    · exact blocked
    · exact can
  | false =>
    have settled := settled_settle isBlocked
    have settled' : { c.settle with journal := .nothing }.Settled :=
      ⟨cleared, blocked.trans settled.isOpen, settled.joined⟩
    exact .of_settled settled' settled rfl rfl rfl rfl rfl rfl can

/-- A refused insert leaves a twin. -/
theorem twin_afterFailure (c : Connection) : c.afterFailure.Twin c := by
  unfold afterFailure
  split_ifs with fresh writes
  · have empty : c.settle.content.isEmpty = true := (Bool.and_eq_true_iff.1 fresh).2
    have begun := twin_of_isEmpty empty writes
    unfold visit
    cases c.read with
    | error e => exact begun
    | ok d =>
      exact (twin_with { c.settle with journal := .nothing } c.settle.lastId d.tables.isSome
        c.settle.isPrepared).trans begun
  · exact c.twin_settle
  · exact c.twin_visit

/-- Making ready leaves a twin, whether it succeeds or not. -/
theorem twin_prepare (c : Connection) : c.prepare.1.Twin c := by
  unfold prepare
  cases c.requireWritable with
  | error e => exact .refl c
  | ok _ =>
    dsimp only
    split_ifs
    · exact c.twin_with c.lastId c.knowsTables true
    · cases c.read.bind Database.requireTables with
      | error e => exact c.twin_visit
      | ok t => exact (c.visit.twin_with c.visit.lastId c.visit.knowsTables true).trans c.twin_visit

/-! ### Twins write alike -/

/-- A connection that has looked and written has still looked. -/
theorem Settled.write (settled : c.Settled) (written : c.write d = .ok r) : r.Settled := by
  obtain ⟨can, rfl⟩ := write_eq_ok written
  by_cases logged : c.isLogged = true
  · exact .of_isLogged logged
  · rw [Bool.not_eq_true] at logged
    have noDirectory : c.log ≠ .directory := by
      intro directory
      have isOpen := settled.isOpen
      simp [isBlocked, logged, directory] at isOpen
    have reachable : c.place ≠ .unreachable := by
      intro gone
      simp [Connection.canWrite, logged, gone] at can
    refine ⟨?_, ?_, settled.joined⟩
    · rw [clearJournal_eq, if_neg]
      simp [clearsJournal, logged]
    · simp [isBlocked, logged, noDirectory, reachable, Companion.isHot]

/-- Twins that have looked both write, or neither can. -/
theorem Twin.write (twin : c.Twin c') (settled : c.Settled) (settled' : c'.Settled)
    (d : Database) : (∃ e, c.write d = .error e ∧ c'.write d = .error e) ∨
      ∃ r r', c.write d = .ok r ∧ c'.write d = .ok r' ∧ r.Settled ∧ r'.Settled ∧ r.Twin r' := by
  have canWrite := twin.canWrite
  have isLogged := twin.isLogged
  have log := twin.log
  rw [settled.settle, settled'.settle] at canWrite isLogged log
  replace canWrite : c.canWrite = c'.canWrite := canWrite
  by_cases can : c.canWrite = true
  · obtain ⟨r, written⟩ : ∃ r, c.write d = .ok r := ⟨_, if_pos can⟩
    obtain ⟨r', written'⟩ : ∃ r', c'.write d = .ok r' := ⟨_, if_pos (canWrite ▸ can)⟩
    have after := settled.write written
    have after' := settled'.write written'
    refine .inr ⟨r, r', written, written', after, after', ?_⟩
    obtain ⟨-, rfl⟩ := write_eq_ok written
    obtain ⟨-, rfl⟩ := write_eq_ok written'
    refine .of_settled after after' twin.mode twin.place ?_ ?_ isLogged log ?_
    · show c.changes + 1 = c'.changes + 1
      rw [twin.changes]
    · show Content.database d (c.changes + 1) = .database d (c'.changes + 1)
      rw [twin.changes]
    · have logged : c.isLogged = c'.isLogged := isLogged
      have place := twin.place
      unfold Connection.canWrite
      dsimp only
      rw [logged, place]
      cases c'.isLogged <;> rfl
  · exact .inl ⟨_, if_neg can, if_neg (canWrite ▸ can)⟩

/-- What could be read has been looked at. -/
theorem settled_visit (reads : c.read = .ok d) : c.visit.Settled := by
  have isOpen : c.clearJournal.isBlocked = false := by
    rw [← Bool.not_eq_true]
    intro blocked
    rw [read, settle_of_isBlocked blocked, if_pos blocked] at reads
    cases reads
  rw [visit_of_read reads]
  exact (settled_settle isOpen).with _ _ _

theorem Twin.visit (twin : c.Twin c') : c.visit.Twin c'.visit :=
  (c.twin_visit.trans twin).trans c'.twin_visit.symm

theorem Twin.afterFailure (twin : c.Twin c') : c.afterFailure.Twin c'.afterFailure :=
  (c.twin_afterFailure.trans twin).trans c'.twin_afterFailure.symm

theorem Twin.insert (twin : c.Twin c')
    (change : Database → Except StoreError (Int64 × Database)) :
    (c.insert change).2 = (c'.insert change).2 ∧
      (c.insert change).1.Twin (c'.insert change).1 := by
  have reads := twin.read
  unfold Connection.insert
  cases read : c.read with
  | error e =>
    rw [← reads, read]
    exact ⟨rfl, twin.afterFailure⟩
  | ok d =>
    rw [← reads, read]
    dsimp only [Except.bind]
    cases made : change d with
    | error e => exact ⟨rfl, twin.afterFailure⟩
    | ok put =>
      dsimp only
      obtain ⟨e, refused, refused'⟩ | ⟨r, r', written, written', settled, settled', after⟩ :=
        twin.visit.write (settled_visit read) (settled_visit (reads ▸ read)) put.2
      · rw [refused, refused']
        exact ⟨rfl, twin.afterFailure⟩
      · rw [written, written']
        refine ⟨rfl, Twin.trans ?_ (after.trans ?_)⟩
        · exact r.twin_with put.1 r.knowsTables r.isPrepared
        · exact (r'.twin_with put.1 r'.knowsTables r'.isPrepared).symm

theorem Twin.insertStream (twin : c.Twin c') (s : StreamDescriptor) (n : Nonce) (g : Digest) :
    (c.insertStream s n g).2 = (c'.insertStream s n g).2 ∧
      (c.insertStream s n g).1.Twin (c'.insertStream s n g).1 := by
  unfold Connection.insertStream
  rw [← twin.requireWritable]
  cases c.requireWritable with
  | error e => exact ⟨rfl, twin⟩
  | ok _ =>
    exact ⟨congrArg (Except.map StreamId.mk) (twin.insert _).1, (twin.insert _).2⟩

/-- An insert that needs the tables fails like making ready for it. -/
theorem insert_of_unprepared {e : StoreError} (writable : c.requireWritable = .ok ())
    (refused : c.prepare.2 = .error e)
    (change : Database → Tables → Except StoreError (Int64 × Database)) :
    (c.insert fun d => d.requireTables.bind (change d)).2 = .error e ∧
      (c.insert fun d => d.requireTables.bind (change d)).1.Twin c := by
  have failed : (c.read.bind fun d => d.requireTables.bind (change d)) = .error e := by
    unfold Connection.prepare at refused
    rw [writable] at refused
    dsimp only at refused
    split_ifs at refused
    cases read : c.read with
    | error e' =>
      rw [read] at refused
      exact congrArg Except.error (Except.error.inj refused)
    | ok d =>
      rw [read] at refused
      dsimp only [Except.bind] at refused ⊢
      cases tables : d.requireTables with
      | error e' =>
        rw [tables] at refused
        exact congrArg Except.error (Except.error.inj refused)
      | ok t =>
        rw [tables] at refused
        cases refused
  unfold Connection.insert
  rw [failed]
  exact ⟨rfl, c.twin_afterFailure⟩

/-- The insert of a record, once the connection is ready for it. -/
def putRecord (c : Connection) (id : StreamId) (timestamp : Int64) (payload : Bytes) (g : Digest) :
    Connection × Except StoreError Int64 :=
  c.insert fun d => d.requireTables.bind fun t =>
    (t.addRecord id timestamp payload g.bytes).bind fun (id, t) =>
      .ok (id, { d with tables := some t })

/-- Whether a connection makes ready before it inserts a record or was ready, it comes to the
same. -/
theorem insertRecord_eq (writable : c.requireWritable = .ok ()) (id : StreamId)
    (timestamp : Int64) (payload : Bytes) (g : Digest) :
    (c.insertRecord id timestamp payload g).2 =
        (c.putRecord id timestamp payload g).2.map (fun _ => ()) ∧
      (c.insertRecord id timestamp payload g).1.Twin (c.putRecord id timestamp payload g).1 := by
  have ready := c.twin_prepare
  unfold Connection.insertRecord
  rcases prepared : c.prepare with ⟨p, e | _⟩ <;> rw [prepared] at ready
  · obtain ⟨answer, after⟩ := insert_of_unprepared (e := e) writable (by rw [prepared])
      fun d t => (t.addRecord id timestamp payload g.bytes).bind fun (id, t) =>
        .ok (id, { d with tables := some t })
    rw [putRecord, answer]
    exact ⟨rfl, ready.trans after.symm⟩
  · obtain ⟨answer, after⟩ := ready.insert fun d => d.requireTables.bind fun t =>
      (t.addRecord id timestamp payload g.bytes).bind fun (id, t) =>
        .ok (id, { d with tables := some t })
    exact ⟨congrArg (Except.map fun _ => ()) answer, after⟩

theorem Twin.insertRecord (twin : c.Twin c') (id : StreamId) (timestamp : Int64)
    (payload : Bytes) (g : Digest) :
    (c.insertRecord id timestamp payload g).2 = (c'.insertRecord id timestamp payload g).2 ∧
      (c.insertRecord id timestamp payload g).1.Twin
        (c'.insertRecord id timestamp payload g).1 := by
  cases writable : c.requireWritable with
  | error e =>
    have writable' := twin.requireWritable ▸ writable
    unfold Connection.insertRecord Connection.prepare
    rw [writable, writable']
    exact ⟨rfl, twin⟩
  | ok _ =>
    have writable' := twin.requireWritable ▸ writable
    obtain ⟨answer, after⟩ := insertRecord_eq writable id timestamp payload g
    obtain ⟨answer', after'⟩ := insertRecord_eq writable' id timestamp payload g
    obtain ⟨same, put⟩ := twin.insert fun d => d.requireTables.bind fun t =>
      (t.addRecord id timestamp payload g.bytes).bind fun (id, t) =>
        .ok (id, { d with tables := some t })
    refine ⟨?_, after.trans (Twin.trans put after'.symm)⟩
    rw [answer, answer']
    exact congrArg (Except.map fun _ => ()) same

/-! ### Creating the schema -/

theorem Twin.ensureVersions (twin : c.Twin c') (settled : c.Settled) (settled' : c'.Settled)
    (d : Database) :
    (∃ e, c.ensureVersions d = .error e ∧ c'.ensureVersions d = .error e) ∨
      ∃ r r' d', c.ensureVersions d = .ok (r, d') ∧ c'.ensureVersions d = .ok (r', d') ∧
        r.Settled ∧ r'.Settled ∧ r.Twin r' := by
  unfold Connection.ensureVersions
  split_ifs
  · exact .inr ⟨c, c', d, rfl, rfl, settled, settled', twin⟩
  · obtain ⟨e, refused, refused'⟩ | ⟨r, r', written, written', after⟩ :=
      twin.write settled settled' d.withVersions
    · rw [refused, refused']
      exact .inl ⟨e, rfl, rfl⟩
    · rw [written, written']
      exact .inr ⟨r, r', d.withVersions, rfl, rfl, after⟩

theorem Twin.ensureTables (twin : c.Twin c') (settled : c.Settled) (settled' : c'.Settled)
    (d : Database) :
    (∃ e, c.ensureTables d = .error e ∧ c'.ensureTables d = .error e) ∨
      ∃ r r', c.ensureTables d = .ok r ∧ c'.ensureTables d = .ok r' ∧ r.Twin r' := by
  unfold Connection.ensureTables
  cases d.needsTables with
  | error e => exact .inl ⟨e, rfl, rfl⟩
  | ok needed =>
    cases needed with
    | false => exact .inr ⟨c, c', rfl, rfl, twin⟩
    | true =>
      cases d.createTables with
      | error e => exact .inl ⟨e, rfl, rfl⟩
      | ok d' =>
        obtain ⟨e, refused, refused'⟩ | ⟨r, r', written, written', -, -, after⟩ :=
          twin.write settled settled' d'
        · refine .inl ⟨e, ?_, ?_⟩ <;> simp [bind, Except.bind, refused, refused']
        · refine .inr ⟨{ r with lastId := schemaVersion }, { r' with lastId := schemaVersion },
            ?_, ?_, ?_⟩
          · simp [bind, Except.bind, pure, Except.pure, written]
          · simp [bind, Except.bind, pure, Except.pure, written']
          · exact ((r.twin_with schemaVersion r.knowsTables r.isPrepared).trans after).trans
              (r'.twin_with schemaVersion r'.knowsTables r'.isPrepared).symm

theorem Twin.createSchema (twin : c.Twin c') :
    c.createSchema.2 = c'.createSchema.2 ∧ c.createSchema.1.Twin c'.createSchema.1 := by
  have reads := twin.read
  unfold Connection.createSchema
  rw [← twin.requireWritable, ← reads]
  cases c.requireWritable with
  | error e => exact ⟨rfl, twin⟩
  | ok _ =>
    dsimp only
    cases read : c.read with
    | error e => exact ⟨rfl, twin.visit⟩
    | ok d =>
      dsimp only [Except.bind]
      obtain ⟨e, refused, refused'⟩ | ⟨v, v', d', made, made', settled, settled', after⟩ :=
        twin.visit.ensureVersions (settled_visit read) (settled_visit (reads ▸ read)) d
      · rw [refused, refused']
        exact ⟨rfl, twin.visit⟩
      · rw [made, made']
        dsimp only
        obtain ⟨e, refused, refused'⟩ | ⟨r, r', done, done', after'⟩ :=
          after.ensureTables settled settled' d'
        · rw [refused, refused']
          exact ⟨rfl, after⟩
        · rw [done, done']
          exact ⟨rfl, after'⟩

/-- An insert that is refused leaves a twin. -/
theorem twin_insert_of_error {change : Database → Except StoreError (Int64 × Database)}
    {e : StoreError} (refused : (c.insert change).2 = .error e) : (c.insert change).1.Twin c := by
  unfold insert at refused ⊢
  cases made : c.read.bind change with
  | error e' => exact c.twin_afterFailure
  | ok put =>
    rw [made] at refused
    dsimp only at refused ⊢
    cases written : c.visit.write put.2 with
    | error e' => exact c.twin_afterFailure
    | ok r =>
      rw [written] at refused
      cases refused

theorem twin_insertStream_of_error {s : StreamDescriptor} {n : Nonce} {g : Digest} {e : StoreError}
    (refused : (c.insertStream s n g).2 = .error e) : (c.insertStream s n g).1.Twin c := by
  unfold insertStream at refused ⊢
  cases writable : c.requireWritable with
  | error e' => exact .refl c
  | ok _ =>
    rw [writable] at refused
    exact twin_insert_of_error (Except.map_eq_error_iff.1 refused)

theorem twin_insertRecord_of_error {id : StreamId} {timestamp : Int64} {payload : Bytes}
    {g : Digest} {e : StoreError} (refused : (c.insertRecord id timestamp payload g).2 = .error e) :
    (c.insertRecord id timestamp payload g).1.Twin c := by
  cases writable : c.requireWritable with
  | error e' =>
    unfold insertRecord prepare
    rw [writable]
    exact .refl c
  | ok _ =>
    obtain ⟨answer, after⟩ := insertRecord_eq writable id timestamp payload g
    rw [answer] at refused
    exact after.trans (twin_insert_of_error (Except.map_eq_error_iff.1 refused))

end Connection

/-! ### Stores -/

/-- The stores are in memory and the same, or have connections that are twins. -/
inductive Engine.Twin : Engine → Engine → Prop
  | memory (m : MemoryStore) : Engine.Twin (.memory m) (.memory m)
  | connection {c c' : Connection} (twin : c.Twin c') : Engine.Twin (.connection c) (.connection c')

namespace Engine.Twin

variable {e e' e'' : Engine}

theorem refl (e : Engine) : e.Twin e := by
  cases e with
  | memory m => exact .memory m
  | connection c => exact .connection (.refl c)

theorem symm (twin : e.Twin e') : e'.Twin e := by
  cases twin with
  | memory m => exact .memory m
  | connection twin => exact .connection twin.symm

theorem trans (twin : e.Twin e') (next : e'.Twin e'') : e.Twin e'' := by
  cases twin with
  | memory m => exact next
  | connection twin =>
    cases next with
    | connection next => exact .connection (twin.trans next)

end Engine.Twin

namespace Store

variable {s s' : Store}

/-- The same operations fail in both stores, which are otherwise twins. -/
structure Twin (s s' : Store) : Prop where
  faults : s.faults = s'.faults
  engine : s.engine.Twin s'.engine

namespace Twin

theorem refl (s : Store) : s.Twin s := ⟨rfl, .refl s.engine⟩

theorem symm (twin : s.Twin s') : s'.Twin s := ⟨twin.faults.symm, twin.engine.symm⟩

theorem trans {s'' : Store} (twin : s.Twin s') (next : s'.Twin s'') : s.Twin s'' :=
  ⟨twin.faults.trans next.faults, twin.engine.trans next.engine⟩

end Twin

/-- A change that connections answer alike is answered alike by stores. -/
theorem Twin.change {α : Type} (twin : s.Twin s') (method : StoreMethod)
    (inMemory : MemoryStore → Except StoreError (α × MemoryStore))
    {connected : Connection → Connection × Except StoreError α}
    (alike : ∀ c c' : Connection, c.Twin c' →
      (connected c).2 = (connected c').2 ∧ (connected c).1.Twin (connected c').1) :
    (s.change method inMemory connected).2 = (s'.change method inMemory connected).2 ∧
      (s.change method inMemory connected).1.Twin (s'.change method inMemory connected).1 := by
  obtain ⟨faults, engine⟩ := twin
  rcases s with ⟨e, plan⟩
  rcases s' with ⟨e', plan'⟩
  obtain rfl : plan = plan' := faults
  unfold Store.change
  dsimp only at engine ⊢
  cases plan method with
  | some failure => exact ⟨rfl, rfl, engine⟩
  | none =>
    cases engine with
    | memory m => cases inMemory m <;> exact ⟨rfl, .refl _⟩
    | connection twin =>
      obtain ⟨answer, after⟩ := alike _ _ twin
      exact ⟨answer, rfl, .connection after⟩

/-- A change that is refused leaves a twin if connections do it so. -/
theorem twin_change_of_error {α : Type} {method : StoreMethod}
    {inMemory : MemoryStore → Except StoreError (α × MemoryStore)}
    {connected : Connection → Connection × Except StoreError α} {e : StoreError}
    (kept : ∀ c, (connected c).2 = .error e → (connected c).1.Twin c)
    (refused : (s.change method inMemory connected).2 = .error e) :
    (s.change method inMemory connected).1.Twin s := by
  unfold Store.change at refused ⊢
  cases failure : s.faults method with
  | some e' => exact .refl s
  | none =>
    rw [failure] at refused
    dsimp only at refused ⊢
    cases engine : s.engine with
    | memory m =>
      rw [engine] at refused
      dsimp only at refused ⊢
      cases made : inMemory m with
      | error e' => exact .refl s
      | ok put =>
        rw [made] at refused
        cases refused
    | connection c =>
      rw [engine] at refused
      refine ⟨rfl, ?_⟩
      rw [engine]
      exact .connection (kept c refused)

theorem Twin.createSchema (twin : s.Twin s') :
    s.createSchema.2 = s'.createSchema.2 ∧ s.createSchema.1.Twin s'.createSchema.1 :=
  twin.change .createSchema _ fun _ _ twin => twin.createSchema

theorem Twin.insertStream (twin : s.Twin s') (d : StreamDescriptor) (n : Nonce) (g : Digest) :
    (s.insertStream d n g).2 = (s'.insertStream d n g).2 ∧
      (s.insertStream d n g).1.Twin (s'.insertStream d n g).1 :=
  twin.change .insertStream _ fun _ _ twin => twin.insertStream d n g

theorem Twin.insertRecord (twin : s.Twin s') (id : StreamId) (timestamp : Int64)
    (payload : Bytes) (g : Digest) :
    (s.insertRecord id timestamp payload g).2 = (s'.insertRecord id timestamp payload g).2 ∧
      (s.insertRecord id timestamp payload g).1.Twin (s'.insertRecord id timestamp payload g).1 :=
  twin.change .insertRecord _ fun _ _ twin => twin.insertRecord id timestamp payload g

theorem twin_insertStream_of_error {d : StreamDescriptor} {n : Nonce} {g : Digest} {e : StoreError}
    (refused : (s.insertStream d n g).2 = .error e) : (s.insertStream d n g).1.Twin s :=
  twin_change_of_error (fun _ => Connection.twin_insertStream_of_error) refused

theorem twin_insertRecord_of_error {id : StreamId} {timestamp : Int64} {payload : Bytes}
    {g : Digest} {e : StoreError} (refused : (s.insertRecord id timestamp payload g).2 = .error e) :
    (s.insertRecord id timestamp payload g).1.Twin s :=
  twin_change_of_error (fun _ => Connection.twin_insertRecord_of_error) refused

/-- Making ready leaves a twin, whether it succeeds or not. -/
theorem twin_prepare (s : Store) : s.prepare.1.Twin s := by
  unfold prepare change
  cases s.faults .prepare with
  | some e => exact .refl s
  | none =>
    dsimp only
    cases engine : s.engine with
    | memory m =>
      refine ⟨rfl, ?_⟩
      rw [engine]
      exact .memory m
    | connection c =>
      refine ⟨rfl, ?_⟩
      rw [engine]
      exact .connection c.twin_prepare

theorem twin_visit (s : Store) (method : StoreMethod) : (s.visit method).Twin s := by
  unfold visit
  split
  · rename_i c _ engine
    refine ⟨rfl, ?_⟩
    rw [engine]
    exact .connection c.twin_visit
  · exact .refl s

theorem Twin.visit (twin : s.Twin s') (method : StoreMethod) :
    (s.visit method).Twin (s'.visit method) :=
  ((s.twin_visit method).trans twin).trans (s'.twin_visit method).symm

/-! ### Queries -/

/-- What connections answer alike, stores answer alike. -/
theorem Twin.answer {α : Type} (twin : s.Twin s') (method : StoreMethod)
    {said said' : Except StoreError α} (alike : said = said') :
    s.guarded method said = s'.guarded method said' := by
  unfold guarded
  rw [twin.faults, alike]

theorem Twin.page (twin : s.Twin s') (after : ReadPosition) (limit : Nat) :
    s.page after limit = s'.page after limit := by
  rcases s with ⟨e, plan⟩
  rcases s' with ⟨e', plan'⟩
  apply twin.answer
  cases twin.engine with
  | memory m => rfl
  | connection same => exact congrArg (Except.map fun t => t.page after limit) same.query

theorem Twin.streams (twin : s.Twin s') : s.streams = s'.streams := by
  rcases s with ⟨e, plan⟩
  rcases s' with ⟨e', plan'⟩
  apply twin.answer
  cases twin.engine with
  | memory m => rfl
  | connection same => exact congrArg (Except.map Tables.streamList) same.query

theorem Twin.statistics (twin : s.Twin s') : s.statistics = s'.statistics := by
  rcases s with ⟨e, plan⟩
  rcases s' with ⟨e', plan'⟩
  apply twin.answer
  cases twin.engine with
  | memory m => rfl
  | connection same => exact congrArg (Except.map Tables.statistics) same.query

theorem Twin.size (twin : s.Twin s') : s.size = s'.size := by
  rcases s with ⟨e, plan⟩
  rcases s' with ⟨e', plan'⟩
  apply twin.answer
  cases twin.engine with
  | memory m => rfl
  | connection same => exact same.size

theorem Twin.recordCount (twin : s.Twin s') : s.recordCount = s'.recordCount := by
  rcases s with ⟨e, plan⟩
  rcases s' with ⟨e', plan'⟩
  obtain ⟨-, engine⟩ := twin
  unfold Store.recordCount
  cases engine with
  | memory m => rfl
  | connection twin =>
    dsimp only
    rw [twin.query]

/-- Twins have the same rows, whichever of their operations fail. -/
theorem tables_of_twin (twin : s.engine.Twin s'.engine) : s.tables = s'.tables := by
  rcases s with ⟨e, plan⟩
  rcases s' with ⟨e', plan'⟩
  unfold Store.tables
  cases twin with
  | memory m => rfl
  | connection twin => exact congrArg Content.tables twin.content

end Store

end SealedLog

import SealedLog.Proofs.Store.Rows

/-!
# What changes do to the rows of a store

A change either is refused, and keeps the rows, or adds one row behind the others. This is so in
memory and in a database, and whatever makes the change fail.

* `Store.tables_createSchema`, `Store.tables_prepare`, `Store.tables_visit`: the rows stay;
* `Store.insertStream_cases`, `Store.insertRecord_cases`: the rows stay, or there is one more;
* `Tables.Numbered`, `Tables.IsNext`: streams are numbered by their place, from one;
* `Tables.Ordered`, `Tables.IsBehind`: records are numbered upwards, and each has its stream;
* `Tables.Grows`: nothing or one row is added;
* `Row`, `Tables.added`: the rows that some tables have behind those of others.
-/

namespace SealedLog

namespace Tables

/-- The tables with one more stream. -/
def withStream (t : Tables) (row : StreamRow) : Tables := { t with streams := t.streams ++ [row] }

/-- The tables with one more record. -/
def withRecord (t : Tables) (row : RecordRow) : Tables := { t with records := t.records ++ [row] }

/-- Streams are numbered by their place, from one. -/
def Numbered (t : Tables) : Prop :=
  ∀ (k : Nat) (row : StreamRow), t.streams[k]? = some row → row.id.number.toInt = k + 1

/-- Every record is of a stream that is there, as the schema of a store demands. -/
def Referential (t : Tables) : Prop := ∀ r ∈ t.records, ∃ s ∈ t.streams, s.id = r.stream

/-- Streams are numbered by their place and records upwards, and every record is of a stream. -/
structure Ordered (t : Tables) : Prop where
  numbered : t.Numbered
  positive : ∀ r ∈ t.records, 0 < r.id
  ascending : t.records.Pairwise fun r s => r.id < s.id
  referential : t.Referential

/-- Whether the number is above those of the records, as long as these are numbered upwards. -/
def IsBehind (t : Tables) (id : Int64) : Prop :=
  t.Ordered → 0 < id ∧ ∀ r ∈ t.records, r.id < id

/-- Whether the number is the one after those of the streams, as long as these are numbered by their
place. -/
def IsNext (t : Tables) (id : StreamId) : Prop :=
  t.Numbered → id.number.toInt = t.streams.length + 1

theorem nextId_eq_ok {ids : List Int64} {id : Int64} (h : nextId ids = .ok id) :
    Query.maxId ids < Int64.maxValue ∧ id = Query.maxId ids + 1 := by
  unfold nextId at h
  dsimp only at h
  split_ifs at h with left
  cases h
  exact ⟨left, rfl⟩

/-- The greatest number of streams that are numbered by their place is their count. -/
theorem toInt_maxId {t : Tables} (h : t.Numbered) :
    (Query.maxId (t.streams.map fun s => s.id.number)).toInt = t.streams.length := by
  -- the greatest number is not below that of the last stream, and not above any place
  rcases List.eq_nil_or_concat t.streams with none | ⟨before, last, some⟩
  · rw [none]
    rfl
  · have len : t.streams.length = before.length + 1 := by rw [some]; simp
    have atLast : last.id.number.toInt = before.length + 1 :=
      h before.length last (by rw [some]; simp)
    have le : last.id.number ≤ Query.maxId (t.streams.map fun s => s.id.number) :=
      le_maxId (List.mem_map_of_mem (by rw [some]; simp))
    have mem : Query.maxId (t.streams.map fun s => s.id.number) ∈
        t.streams.map fun s => s.id.number := maxId_mem (by rw [some]; simp)
    obtain ⟨row, hrow, heq⟩ := List.mem_map.1 mem
    obtain ⟨k, hk⟩ := List.getElem?_of_mem hrow
    have atRow := h k row hk
    have below := (List.getElem?_eq_some_iff.1 hk).1
    rw [← heq, Int64.le_iff_toInt_le] at le
    rw [← heq]
    omega

theorem addStream_eq_ok {t t' : Tables} {d : StreamDescriptor} {n g : Bytes} {id : StreamId}
    (h : t.addStream d n g = .ok (id, t')) :
    (∀ s ∈ t.streams, s.descriptor.name ≠ d.name) ∧ t.IsNext id ∧
      t' = t.withStream ⟨id, d, n, g⟩ := by
  unfold addStream at h
  split_ifs at h with taken
  · cases h
  · obtain ⟨number, next, h⟩ := Except.bind_eq_ok_iff.1 h
    cases h
    obtain ⟨left, rfl⟩ := nextId_eq_ok next
    refine ⟨fun s hs e => taken ?_, fun numbered => ?_, rfl⟩
    · exact List.any_eq_true.2 ⟨s, hs, by simpa using e⟩
    · rw [toInt_succ left, toInt_maxId numbered]

/-- The number after the greatest of numbers that count from one is above all of them. -/
theorem succ_maxId_gt {ids : List Int64} (left : Query.maxId ids < Int64.maxValue)
    (positive : ∀ id ∈ ids, 0 < id) :
    0 < Query.maxId ids + 1 ∧ ∀ id ∈ ids, id < Query.maxId ids + 1 := by
  have next := toInt_succ left
  have above : ∀ id ∈ ids, id < Query.maxId ids + 1 := fun id mem => by
    have le := Int64.le_iff_toInt_le.1 (le_maxId mem)
    rw [Int64.lt_iff_toInt_lt]
    omega
  refine ⟨?_, above⟩
  cases ids with
  | nil => decide
  | cons id rest =>
    exact Int64.lt_trans (positive id List.mem_cons_self) (above id List.mem_cons_self)

theorem isBehind_succ_maxId {t : Tables}
    (left : Query.maxId (t.records.map RecordRow.id) < Int64.maxValue) :
    t.IsBehind (Query.maxId (t.records.map RecordRow.id) + 1) := by
  intro ordered
  obtain ⟨positive, above⟩ := succ_maxId_gt left fun id mem => by
    obtain ⟨r, hr, rfl⟩ := List.mem_map.1 mem
    exact ordered.positive r hr
  exact ⟨positive, fun r hr => above r.id (List.mem_map_of_mem hr)⟩

theorem addRecord_eq_ok {t t' : Tables} {stream : StreamId} {timestamp : Int64}
    {payload digest : Bytes} {id : Int64}
    (h : t.addRecord stream timestamp payload digest = .ok (id, t')) :
    (∃ s ∈ t.streams, s.id = stream) ∧ t.IsBehind id ∧
      t' = t.withRecord ⟨id, stream, timestamp, payload, digest⟩ := by
  unfold addRecord at h
  split_ifs at h with known
  · obtain ⟨number, next, h⟩ := Except.bind_eq_ok_iff.1 h
    cases h
    obtain ⟨s, hs, e⟩ := List.any_eq_true.1 known
    obtain ⟨left, rfl⟩ := nextId_eq_ok next
    exact ⟨⟨s, hs, by simpa using e⟩, isBehind_succ_maxId left, rfl⟩
  · cases h

theorem Ordered.empty : Ordered {} where
  numbered _ _ h := nomatch h
  positive _ h := nomatch h
  ascending := .nil
  referential _ h := nomatch h

/-- Tables stay ordered when a stream gets the next number. -/
theorem Ordered.withStream {t : Tables} (ordered : t.Ordered) {row : StreamRow}
    (next : t.IsNext row.id) : (t.withStream row).Ordered where
  numbered k s hs := by
    rw [Tables.withStream, List.getElem?_append] at hs
    split_ifs at hs with old
    · exact ordered.numbered k s hs
    · obtain ⟨last, same⟩ := List.getElem?_eq_some_iff.1 hs
      rw [List.length_singleton] at last
      rw [List.getElem_singleton] at same
      rw [← same, next ordered.numbered]
      omega
  positive := ordered.positive
  ascending := ordered.ascending
  referential r hr := by
    obtain ⟨s, hs, owner⟩ := ordered.referential r hr
    exact ⟨s, List.mem_append_left _ hs, owner⟩

/-- Tables stay ordered when a record gets a number behind the others. -/
theorem Ordered.withRecord {t : Tables} (ordered : t.Ordered) {row : RecordRow}
    (behind : t.IsBehind row.id) (known : ∃ s ∈ t.streams, s.id = row.stream) :
    (t.withRecord row).Ordered where
  numbered := ordered.numbered
  positive r hr := by
    rcases List.mem_append.1 hr with old | new
    · exact ordered.positive r old
    · rw [List.mem_singleton.1 new]
      exact (behind ordered).1
  ascending := by
    refine List.pairwise_append.2 ⟨ordered.ascending, List.pairwise_singleton _ _, ?_⟩
    intro r hr s hs
    rw [List.mem_singleton.1 hs]
    exact (behind ordered).2 r hr
  referential r hr := by
    rcases List.mem_append.1 hr with old | new
    · exact ordered.referential r old
    · rw [List.mem_singleton.1 new]
      exact known

/-- What a change makes of the tables: nothing, or it adds one row. -/
inductive Grows (t : Tables) : Tables → Prop
  | same : t.Grows t
  | stream {row : StreamRow} (next : t.IsNext row.id) : t.Grows (t.withStream row)
  | record {row : RecordRow} (behind : t.IsBehind row.id)
      (known : ∃ s ∈ t.streams, s.id = row.stream) : t.Grows (t.withRecord row)

theorem Grows.ordered {t t' : Tables} (grows : t.Grows t') (ordered : t.Ordered) : t'.Ordered := by
  cases grows with
  | same => exact ordered
  | stream next => exact ordered.withStream next
  | record behind known => exact ordered.withRecord behind known

/-- The rows of some tables are the first ones of others, in their order and under their numbers,
and so are the records of each stream. -/
structure Extends (t t' : Tables) : Prop where
  streams : t.streams <+: t'.streams
  records : t.records <+: t'.records
  chains : ∀ id more, t'.chain id = .ok more →
    ∃ records, t.chain id = .ok records ∧ records <+: more

theorem Extends.of_rows {t t' : Tables} (streams : t.streams <+: t'.streams)
    (records : t.records <+: t'.records) : t.Extends t' where
  streams := streams
  records := records
  chains id more h := by
    obtain ⟨behind, split⟩ := records
    rw [chain, ← split, List.filter_append, List.mapM_append] at h
    obtain ⟨first, made, h⟩ := Except.bind_eq_ok_iff.1 h
    obtain ⟨rest, -, h⟩ := Except.bind_eq_ok_iff.1 h
    cases h
    exact ⟨first, made, List.prefix_append first rest⟩

theorem Extends.refl (t : Tables) : t.Extends t :=
  ⟨List.prefix_refl _, List.prefix_refl _, fun _ more h => ⟨more, h, List.prefix_refl _⟩⟩

theorem Extends.trans {t t' t'' : Tables} (h : t.Extends t') (h' : t'.Extends t'') :
    t.Extends t'' :=
  .of_rows (h.streams.trans h'.streams) (h.records.trans h'.records)

theorem extends_withStream (t : Tables) (row : StreamRow) : t.Extends (t.withStream row) :=
  .of_rows (List.prefix_append _ _) (List.prefix_refl _)

theorem extends_withRecord (t : Tables) (row : RecordRow) : t.Extends (t.withRecord row) :=
  .of_rows (List.prefix_refl _) (List.prefix_append _ _)

end Tables

@[simp] theorem Rows.tables_withAnchor (rows : Rows) (a : StreamAnchor) :
    (rows.withAnchor a).tables = rows.tables.withStream a.row := by
  simp [Rows.tables, Rows.withAnchor, Tables.withStream]

@[simp] theorem Rows.tables_withRecord (rows : Rows) (id : Int64) (r : Record) :
    (rows.withRecord id r).tables = rows.tables.withRecord (r.row id) := by
  simp [Rows.tables, Rows.withRecord, Tables.withRecord]

namespace MemoryStore

theorem insertStream_eq_ok {m m' : MemoryStore} {d : StreamDescriptor} {n : Nonce} {g : Digest}
    {id : StreamId} (h : m.insertStream d n g = .ok (id, m')) :
    (∀ s ∈ m.rows.tables.streams, s.descriptor.name ≠ d.name) ∧ m.rows.tables.IsNext id ∧
      m'.rows.tables = m.rows.tables.withStream ⟨id, d, n.bytes, g.bytes⟩ := by
  unfold insertStream at h
  obtain ⟨_, _, h⟩ := Except.bind_eq_ok_iff.1 h
  split_ifs at h with taken
  · cases h
  · obtain ⟨number, next, h⟩ := Except.bind_eq_ok_iff.1 h
    cases h
    refine ⟨fun s hs e => taken ?_, fun _ => ?_, ?_⟩
    · obtain ⟨a, ha, rfl⟩ := List.mem_map.1 hs
      exact List.any_eq_true.2 ⟨a, ha, by simpa [StreamAnchor.row] using e⟩
    · unfold nextStreamId at next
      split_ifs at next with left
      cases next
      simpa [rows] using toInt_ofNat_succ left
    · simp [rows, Rows.tables, Tables.withStream, StreamAnchor.row]

/-- The last one of numbers that go upwards is the greatest. -/
theorem last_eq_maxId {m : MemoryStore} (ordered : m.rows.tables.Ordered) :
    (m.records.getLast?.map Prod.fst).getD 0 =
      Query.maxId (m.rows.tables.records.map RecordRow.id) := by
  have ids : m.rows.tables.records.map RecordRow.id = m.records.map Prod.fst := by
    rw [Rows.tables_records, List.map_map]
    rfl
  rw [ids]
  rcases List.eq_nil_or_concat m.records with none | ⟨before, last, some⟩
  · rw [none]
    rfl
  · have ascending := ordered.ascending
    rw [Rows.tables_records, rows, List.pairwise_map, some, List.concat_eq_append,
      List.pairwise_append] at ascending
    have below : ∀ r ∈ before, r.1 < last.1 := fun r hr =>
      ascending.2.2 r hr last List.mem_cons_self
    rw [some, List.concat_eq_append, List.getLast?_concat]
    have mem : Query.maxId ((before ++ [last]).map Prod.fst) ∈ (before ++ [last]).map Prod.fst :=
      maxId_mem (by simp)
    have le : last.1 ≤ Query.maxId ((before ++ [last]).map Prod.fst) := le_maxId (by simp)
    obtain ⟨r, hr, same⟩ := List.mem_map.1 mem
    obtain front | back := List.mem_append.1 hr
    · rw [← same] at le
      exact (Int64.lt_irrefl (Int64.lt_of_lt_of_le (below r front) le)).elim
    · rw [List.mem_singleton.1 back] at same
      exact same

theorem nextRecordId_eq_ok {m : MemoryStore} {id : Int64} (h : m.nextRecordId = .ok id)
    (ordered : m.rows.tables.Ordered) :
    Query.maxId (m.rows.tables.records.map RecordRow.id) < Int64.maxValue ∧
      id = Query.maxId (m.rows.tables.records.map RecordRow.id) + 1 := by
  unfold nextRecordId at h
  dsimp only at h
  rw [last_eq_maxId ordered] at h
  split_ifs at h with left
  cases h
  exact ⟨left, rfl⟩

theorem insertRecord_eq_ok {m m' : MemoryStore} {stream : StreamId} {timestamp : Int64}
    {payload : Bytes} {digest : Digest}
    (h : m.insertRecord stream timestamp payload digest = .ok m') :
    (∃ s ∈ m.rows.tables.streams, s.id = stream) ∧
      ∃ id, m.rows.tables.IsBehind id ∧ m'.rows.tables =
        m.rows.tables.withRecord ⟨id, stream, timestamp, payload, digest.bytes⟩ := by
  unfold insertRecord at h
  obtain ⟨_, _, h⟩ := Except.bind_eq_ok_iff.1 h
  split_ifs at h with unknown
  · cases h
  · obtain ⟨number, next, h⟩ := Except.bind_eq_ok_iff.1 h
    cases h
    refine ⟨?_, number, fun ordered => ?_,
      by simp [rows, Rows.tables, Tables.withRecord, Record.row]⟩
    · unfold streamName? at unknown
      cases hf : m.anchors.find? fun a => a.id == stream with
      | none => simp [hf] at unknown
      | some a =>
        exact ⟨a.row, List.mem_map_of_mem (List.mem_of_find?_eq_some hf),
          by simpa [StreamAnchor.row] using List.find?_some hf⟩
    · obtain ⟨left, rfl⟩ := nextRecordId_eq_ok next ordered
      exact Tables.isBehind_succ_maxId left ordered

end MemoryStore

namespace Connection

theorem getD_tables_of_requireTables {d : Database} {t : Tables} (h : d.requireTables = .ok t) :
    d.tables.getD {} = t := by
  unfold Database.requireTables at h
  split at h
  · rename_i t' some
    cases h
    rw [some]
    rfl
  · cases h

theorem insertStream_cases (c : Connection) (d : StreamDescriptor) (n : Nonce) (g : Digest) :
    ((c.insertStream d n g).1.tables = c.tables ∧ ∃ e, (c.insertStream d n g).2 = .error e) ∨
      ∃ id, (c.insertStream d n g).2 = .ok id ∧
        (∀ s ∈ c.tables.streams, s.descriptor.name ≠ d.name) ∧ c.tables.IsNext id ∧
        (c.insertStream d n g).1.tables = c.tables.withStream ⟨id, d, n.bytes, g.bytes⟩ := by
  unfold insertStream
  cases c.requireWritable with
  | error e => exact .inl ⟨rfl, e, rfl⟩
  | ok _ =>
    dsimp only
    rcases c.insert_cases _ with ⟨kept, e, h⟩ | ⟨db, number, db', hr, hc, h, put⟩
    · rw [h]
      exact .inl ⟨kept, e, rfl⟩
    · obtain ⟨t, ht, hc⟩ := Except.bind_eq_ok_iff.1 hc
      obtain ⟨⟨id, t'⟩, made, hc⟩ := Except.bind_eq_ok_iff.1 hc
      cases hc
      obtain ⟨fresh, next, rfl⟩ := Tables.addStream_eq_ok made
      -- the tables that the change starts from are those that the connection works on
      have here : c.tables = t := (tables_of_read hr).trans (getD_tables_of_requireTables ht)
      rw [h, put, here]
      exact .inr ⟨id, rfl, fresh, next, rfl⟩

theorem insertRecord_cases (c : Connection) (stream : StreamId) (timestamp : Int64)
    (payload : Bytes) (digest : Digest) :
    ((c.insertRecord stream timestamp payload digest).1.tables = c.tables ∧
        ∃ e, (c.insertRecord stream timestamp payload digest).2 = .error e) ∨
      (c.insertRecord stream timestamp payload digest).2 = .ok () ∧
        (∃ s ∈ c.tables.streams, s.id = stream) ∧
        ∃ id, c.tables.IsBehind id ∧
          (c.insertRecord stream timestamp payload digest).1.tables =
            c.tables.withRecord ⟨id, stream, timestamp, payload, digest.bytes⟩ := by
  unfold insertRecord
  rcases hp : c.prepare with ⟨c', e | _⟩
  · have kept := c.tables_prepare
    rw [hp] at kept
    exact .inl ⟨kept, e, rfl⟩
  · have same := c.tables_prepare
    rw [hp] at same
    dsimp only at same ⊢
    rw [← same]
    rcases c'.insert_cases _ with ⟨kept, e, h⟩ | ⟨db, number, db', hr, hc, h, put⟩
    · rw [h]
      exact .inl ⟨kept, e, rfl⟩
    · obtain ⟨t, ht, hc⟩ := Except.bind_eq_ok_iff.1 hc
      obtain ⟨⟨id, t'⟩, made, hc⟩ := Except.bind_eq_ok_iff.1 hc
      cases hc
      obtain ⟨known, behind, rfl⟩ := Tables.addRecord_eq_ok made
      have here : c'.tables = t := (tables_of_read hr).trans (getD_tables_of_requireTables ht)
      rw [h, put, here]
      exact .inr ⟨rfl, known, id, behind, rfl⟩

end Connection

namespace Store

variable {α : Type}

theorem tables_memory {s : Store} {m : MemoryStore} (h : s.engine = .memory m) :
    s.tables = m.rows.tables := by
  rw [tables, h]

theorem tables_connection {s : Store} {c : Connection} (h : s.engine = .connection c) :
    s.tables = c.tables := by
  rw [tables, h]

/-- A change is refused as a whole, or carried out where the rows are kept. -/
theorem change_cases (s : Store) (method : StoreMethod)
    (inMemory : MemoryStore → Except StoreError (α × MemoryStore))
    (connected : Connection → Connection × Except StoreError α) :
    (∃ e, s.change method inMemory connected = (s, .error e)) ∨
      (∃ m a m', s.engine = .memory m ∧ inMemory m = .ok (a, m') ∧
        s.change method inMemory connected = ({ s with engine := .memory m' }, .ok a)) ∨
      ∃ c, s.engine = .connection c ∧ s.change method inMemory connected =
        ({ s with engine := .connection (connected c).1 }, (connected c).2) := by
  unfold change
  cases s.faults method with
  | some e => exact .inl ⟨e, rfl⟩
  | none =>
    cases he : s.engine with
    | memory m =>
      cases hm : inMemory m with
      | error e =>
        simp only [hm]
        exact .inl ⟨e, rfl⟩
      | ok made =>
        simp only [hm]
        exact .inr (.inl ⟨m, made.1, made.2, rfl, hm, rfl⟩)
    | connection c => exact .inr (.inr ⟨c, rfl, rfl⟩)

/-- Giving a store its schema keeps its rows. -/
theorem tables_createSchema (s : Store) : s.createSchema.1.tables = s.tables := by
  unfold createSchema
  rcases s.change_cases .createSchema (fun m => .ok ((), m.createSchema)) Connection.createSchema
    with ⟨e, h⟩ | ⟨m, _, m', he, hm, h⟩ | ⟨c, he, h⟩ <;> rw [h]
  · cases hm
    rw [tables_memory he]
    rfl
  · rw [tables_connection he]
    exact c.tables_createSchema

theorem tables_prepare (s : Store) : s.prepare.1.tables = s.tables := by
  unfold prepare
  rcases s.change_cases .prepare (fun m => .ok ((), m)) Connection.prepare
    with ⟨e, h⟩ | ⟨m, _, m', he, hm, h⟩ | ⟨c, he, h⟩ <;> rw [h]
  · cases hm
    rw [tables_memory he]
    rfl
  · rw [tables_connection he]
    exact c.tables_prepare

/-- Giving an answer keeps the rows. -/
theorem tables_visit (s : Store) (method : StoreMethod) : (s.visit method).tables = s.tables := by
  unfold visit
  split
  · rename_i c _ he
    rw [tables_connection he]
    exact c.tables_visit
  · rfl

/-- A store refuses a stream and keeps its rows, or adds one row, of a new name and the next
number. -/
theorem insertStream_cases (s : Store) (d : StreamDescriptor) (n : Nonce) (g : Digest) :
    ((s.insertStream d n g).1.tables = s.tables ∧ ∃ e, (s.insertStream d n g).2 = .error e) ∨
      ∃ id, (s.insertStream d n g).2 = .ok id ∧
        (∀ row ∈ s.tables.streams, row.descriptor.name ≠ d.name) ∧ s.tables.IsNext id ∧
        (s.insertStream d n g).1.tables = s.tables.withStream ⟨id, d, n.bytes, g.bytes⟩ := by
  unfold insertStream
  rcases s.change_cases .insertStream (fun m => m.insertStream d n g)
      (fun c => c.insertStream d n g)
    with ⟨e, h⟩ | ⟨m, id, m', he, hm, h⟩ | ⟨c, he, h⟩ <;> rw [h]
  · exact .inl ⟨rfl, e, rfl⟩
  · rw [tables_memory he]
    exact .inr ⟨id, rfl, MemoryStore.insertStream_eq_ok hm⟩
  · rw [tables_connection he]
    exact c.insertStream_cases d n g

/-- A store refuses a record and keeps its rows, or adds one row, of a stream that it has. -/
theorem insertRecord_cases (s : Store) (stream : StreamId) (timestamp : Int64) (payload : Bytes)
    (digest : Digest) :
    ((s.insertRecord stream timestamp payload digest).1.tables = s.tables ∧
        ∃ e, (s.insertRecord stream timestamp payload digest).2 = .error e) ∨
      (s.insertRecord stream timestamp payload digest).2 = .ok () ∧
        (∃ row ∈ s.tables.streams, row.id = stream) ∧
        ∃ id, s.tables.IsBehind id ∧
          (s.insertRecord stream timestamp payload digest).1.tables =
            s.tables.withRecord ⟨id, stream, timestamp, payload, digest.bytes⟩ := by
  unfold insertRecord
  rcases s.change_cases .insertRecord
      (fun m => (m.insertRecord stream timestamp payload digest).map fun m => ((), m))
      (fun c => c.insertRecord stream timestamp payload digest)
    with ⟨e, h⟩ | ⟨m, _, m', he, hm, h⟩ | ⟨c, he, h⟩ <;> rw [h]
  · exact .inl ⟨rfl, e, rfl⟩
  · obtain ⟨m'', made, same⟩ := Except.map_eq_ok_iff.1 hm
    cases same
    rw [tables_memory he]
    exact .inr ⟨rfl, MemoryStore.insertRecord_eq_ok made⟩
  · rw [tables_connection he]
    exact c.insertRecord_cases stream timestamp payload digest

end Store

/-! ### The rows that were added -/

/-- A row of a store. -/
inductive Row
  | stream (row : StreamRow)
  | record (row : RecordRow)

namespace Row

def stream? : Row → Option StreamRow
  | .stream row => some row
  | .record _ => none

def record? : Row → Option RecordRow
  | .stream _ => none
  | .record row => some row

end Row

/-- The rows that are in some tables behind those of others. -/
def Tables.added (before after : Tables) : List Row :=
  (after.streams.drop before.streams.length).map Row.stream ++
    (after.records.drop before.records.length).map Row.record

namespace Tables

@[simp] theorem added_self (t : Tables) : t.added t = [] := by simp [added]

@[simp] theorem added_withStream (t : Tables) (row : StreamRow) :
    t.added (t.withStream row) = [.stream row] := by simp [added, withStream]

@[simp] theorem added_withRecord (t : Tables) (row : RecordRow) :
    t.added (t.withRecord row) = [.record row] := by simp [added, withRecord]

end Tables

end SealedLog

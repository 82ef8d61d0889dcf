import SealedLog.Proofs.Store.Pages
import SealedLog.Proofs.Store.Steady

/-!
# Memory and database are alike

A store in memory and one in a database share no code, but both come to what the tables alone come
to: each change is answered as the tables answer it, and each query says what is in them.

* `StoreCall`, `Store.carryOut`, `Store.carryOutAll`: what can be asked of a store, as data;
* `Tables.carryOut`: what the tables alone make of it;
* `Store.Serves`, `Serves.carryOut`: a store that serves some tables goes on as they do;
* `Store.Agree`, `Store.memory_database_alike`: the two stores after the same calls.
-/

namespace SealedLog

/-- What can be asked of a store. -/
inductive StoreCall
  | createSchema
  | prepare
  | insertStream (descriptor : StreamDescriptor) (nonce : Nonce) (digest : Digest)
  | insertRecord (stream : StreamId) (timestamp : Int64) (payload : Bytes) (digest : Digest)
  /-- A query, for what it leaves. -/
  | look (method : StoreMethod)

/-- What calls answer: new streams have a number. -/
abbrev StoreAnswer := Except StoreError (Option StreamId)

/-- The answers that a call gets as long as row numbers are left. -/
def StoreCall.Admits : StoreCall → StoreAnswer → Prop
  | .insertStream descriptor _ _, answer =>
    (∃ id, answer = .ok (some id)) ∨ answer = .error (.duplicateStream descriptor.name)
  | .insertRecord stream _ _ _, answer =>
    answer = .ok none ∨ answer = .error (.missingStream stream)
  | _, answer => answer = .ok none

namespace Store

/-- Carry out one call. -/
def carryOut (s : Store) : StoreCall → Store × StoreAnswer
  | .createSchema => (s.createSchema.1, s.createSchema.2.map fun _ => none)
  | .prepare => (s.prepare.1, s.prepare.2.map fun _ => none)
  | .insertStream descriptor nonce digest =>
    let (s, answer) := s.insertStream descriptor nonce digest
    (s, answer.map some)
  | .insertRecord stream timestamp payload digest =>
    let (s, answer) := s.insertRecord stream timestamp payload digest
    (s, answer.map fun _ => none)
  | .look method => (s.visit method, .ok none)

/-- Carry out one call after the other. -/
def carryOutAll (s : Store) : List StoreCall → Store × List StoreAnswer
  | [] => (s, [])
  | call :: rest =>
    let (s, answer) := s.carryOut call
    let (s, answers) := s.carryOutAll rest
    (s, answer :: answers)

end Store

/-! ### Tables alone -/

namespace Tables

variable {t : Tables}

/-- What the tables make of a call. -/
def carryOut (t : Tables) : StoreCall → Except StoreError (Option StreamId × Tables)
  | .insertStream descriptor nonce digest =>
    (t.addStream descriptor nonce.bytes digest.bytes).map fun p => (some p.1, p.2)
  | .insertRecord stream timestamp payload digest =>
    (t.addRecord stream timestamp payload digest.bytes).map fun p => (none, p.2)
  | _ => .ok (none, t)

/-- What the tables make of one call after the other. -/
def carryOutAll (t : Tables) : List StoreCall → Tables × List StoreAnswer
  | [] => (t, [])
  | call :: rest =>
    let (t', answers) := (t.after (t.carryOut call)).carryOutAll rest
    (t', (t.carryOut call).map Prod.fst :: answers)

theorem after_map {α β : Type} (t : Tables) (x : Except StoreError (α × Tables)) (f : α → β) :
    t.after (x.map fun p => (f p.1, p.2)) = t.after x := by
  cases x <;> rfl

theorem Ordered.after_carryOut (ordered : t.Ordered) (call : StoreCall) :
    (t.after (t.carryOut call)).Ordered := by
  cases call with
  | insertStream d n g =>
    rw [carryOut, after_map]
    cases made : t.addStream d n.bytes g.bytes with
    | error e => exact ordered
    | ok put =>
      obtain ⟨-, next, same⟩ := addStream_eq_ok made
      rw [Tables.after, same]
      exact ordered.withStream next
  | insertRecord stream timestamp payload g =>
    rw [carryOut, after_map (f := fun _ => none)]
    cases made : t.addRecord stream timestamp payload g.bytes with
    | error e => exact ordered
    | ok put =>
      obtain ⟨known, behind, same⟩ := addRecord_eq_ok made
      rw [Tables.after, same]
      exact ordered.withRecord behind known
  | createSchema => exact ordered
  | prepare => exact ordered
  | look method => exact ordered

theorem carryOutAll_cons (t : Tables) (call : StoreCall) (rest : List StoreCall) :
    t.carryOutAll (call :: rest) = (((t.after (t.carryOut call)).carryOutAll rest).1,
      (t.carryOut call).map Prod.fst :: ((t.after (t.carryOut call)).carryOutAll rest).2) := rfl

/-- Octet strings come into the tables with their lengths. -/
theorem exists_rows_after_carryOut (rows : Rows) (call : StoreCall) :
    ∃ rows' : Rows, rows.tables.after (rows.tables.carryOut call) = rows'.tables := by
  cases call with
  | insertStream d n g =>
    rw [carryOut, after_map]
    cases made : rows.tables.addStream d n.bytes g.bytes with
    | error e => exact ⟨rows, rfl⟩
    | ok put =>
      obtain ⟨-, -, same⟩ := addStream_eq_ok made
      refine ⟨rows.withAnchor ⟨put.1, d, n, g⟩, ?_⟩
      rw [after, same, Rows.tables_withAnchor]
      rfl
  | insertRecord stream timestamp payload g =>
    rw [carryOut, after_map (f := fun _ => none)]
    cases made : rows.tables.addRecord stream timestamp payload g.bytes with
    | error e => exact ⟨rows, rfl⟩
    | ok put =>
      obtain ⟨-, -, same⟩ := addRecord_eq_ok made
      refine ⟨rows.withRecord put.1 ⟨timestamp, stream, payload, g⟩, ?_⟩
      rw [after, same, Rows.tables_withRecord]
      rfl
  | createSchema => exact ⟨rows, rfl⟩
  | prepare => exact ⟨rows, rfl⟩
  | look method => exact ⟨rows, rfl⟩

theorem exists_rows_carryOutAll (rows : Rows) (calls : List StoreCall) :
    ∃ rows' : Rows, (rows.tables.carryOutAll calls).1 = rows'.tables := by
  induction calls generalizing rows with
  | nil => exact ⟨rows, rfl⟩
  | cons call rest ih =>
    obtain ⟨rows', after⟩ := exists_rows_after_carryOut rows call
    rw [carryOutAll_cons, after]
    exact ih rows'

/-! ### Numbers left -/

/-- No row has a number above this one. -/
structure Within (t : Tables) (n : Nat) : Prop where
  streams : ∀ s ∈ t.streams, s.id.number.toInt ≤ n
  records : ∀ r ∈ t.records, r.id.toInt ≤ n

theorem Within.mono {n m : Nat} (within : t.Within n) (le : n ≤ m) : t.Within m where
  streams s hs := Int.le_trans (within.streams s hs) (Int.ofNat_le.2 le)
  records r hr := Int.le_trans (within.records r hr) (Int.ofNat_le.2 le)

/-- As long as numbers are left there is a next one. -/
theorem nextId_of_le (ids : List Int64) {n : Nat} (within : ∀ id ∈ ids, id.toInt ≤ n)
    (room : n < maxLimit) : ∃ id, nextId ids = .ok id ∧ id.toInt ≤ n + 1 := by
  have greatest : (Query.maxId ids).toInt ≤ n := by
    cases ids with
    | nil => exact Int.natCast_nonneg n
    | cons id rest => exact within _ (maxId_mem (List.cons_ne_nil _ _))
  have limit : maxLimit = 9223372036854775807 := by decide
  have left : Query.maxId ids < Int64.maxValue := by
    rw [Int64.lt_iff_toInt_lt, show Int64.maxValue.toInt = 9223372036854775807 by decide]
    omega
  refine ⟨Query.maxId ids + 1, if_pos left, ?_⟩
  rw [toInt_succ left]
  omega

/-- A call that finds numbers left is answered as it should, and uses at most one of them. -/
theorem Within.carryOut {n : Nat} (within : t.Within n) (room : n < maxLimit) (call : StoreCall) :
    call.Admits ((t.carryOut call).map Prod.fst) ∧
      (t.after (t.carryOut call)).Within (n + 1) := by
  have same := within.mono n.le_succ
  cases call with
  | insertStream d nonce digest =>
    obtain ⟨id, next, small⟩ := nextId_of_le (t.streams.map fun s => s.id.number)
      (by simpa using within.streams) room
    rw [Tables.carryOut, addStream]
    split_ifs
    · exact ⟨.inr rfl, same⟩
    · rw [next]
      refine ⟨.inl ⟨⟨id⟩, rfl⟩, fun s hs => ?_, same.records⟩
      rcases List.mem_append.1 hs with old | new
      · exact same.streams s old
      · rw [List.mem_singleton.1 new]
        exact small
  | insertRecord stream timestamp payload digest =>
    obtain ⟨id, next, small⟩ := nextId_of_le (t.records.map RecordRow.id)
      (by simpa using within.records) room
    rw [Tables.carryOut, addRecord]
    split_ifs
    · rw [next]
      refine ⟨.inl rfl, same.streams, fun r hr => ?_⟩
      rcases List.mem_append.1 hr with old | new
      · exact same.records r old
      · rw [List.mem_singleton.1 new]
        exact small
    · exact ⟨.inr rfl, same⟩
  | createSchema => exact ⟨rfl, same⟩
  | prepare => exact ⟨rfl, same⟩
  | look method => exact ⟨rfl, same⟩

theorem Within.carryOutAll {n : Nat} (within : t.Within n) {calls : List StoreCall}
    (room : n + calls.length ≤ maxLimit) :
    List.Forall₂ StoreCall.Admits calls (t.carryOutAll calls).2 := by
  induction calls generalizing t n with
  | nil => exact .nil
  | cons call rest ih =>
    rw [List.length_cons] at room
    obtain ⟨admits, next⟩ := within.carryOut (by omega) call
    exact .cons admits (ih next (by omega))

end Tables

/-! ### Memory -/

namespace MemoryStore

variable {m : MemoryStore}

/-- The next stream gets the number that the tables give it. -/
theorem nextId_streams (numbered : m.rows.tables.Numbered) :
    Tables.nextId (m.rows.tables.streams.map fun s => s.id.number) =
      m.nextStreamId.map StreamId.number := by
  have greatest := Tables.toInt_maxId numbered
  have count : m.rows.tables.streams.length = m.anchors.length := List.length_map _
  have top : Int64.maxValue.toInt = 9223372036854775807 := by decide
  rw [count] at greatest
  unfold Tables.nextId nextStreamId
  dsimp only
  by_cases left : m.anchors.length < Int64.maxValue.toInt.toNat
  · have below : Query.maxId (m.rows.tables.streams.map fun s => s.id.number) < Int64.maxValue := by
      rw [Int64.lt_iff_toInt_lt]
      omega
    rw [if_pos left, if_pos below, Except.map, Except.ok.injEq, ← Int64.toInt_inj,
      toInt_succ below, toInt_ofNat_succ left, greatest]
  · rw [if_neg left, if_neg]
    · rfl
    · rw [Int64.lt_iff_toInt_lt]
      omega

/-- The next record gets the number that the tables give it. -/
theorem nextId_records (ordered : m.rows.tables.Ordered) :
    Tables.nextId (m.rows.tables.records.map RecordRow.id) = m.nextRecordId := by
  unfold Tables.nextId nextRecordId
  dsimp only
  rw [last_eq_maxId ordered]

/-- In memory a stream is inserted as into the tables. -/
theorem insertStream_cases (schema : m.hasSchema = true) (numbered : m.rows.tables.Numbered)
    (d : StreamDescriptor) (n : Nonce) (g : Digest) :
    (∃ e, m.insertStream d n g = .error e ∧
        m.rows.tables.addStream d n.bytes g.bytes = .error e) ∨
      ∃ id m', m.insertStream d n g = .ok (id, m') ∧ m'.hasSchema = true ∧
        m.rows.tables.addStream d n.bytes g.bytes = .ok (id, m'.rows.tables) := by
  have taken : (m.rows.tables.streams.any fun s => s.descriptor.name == d.name) =
      m.anchors.any fun a => a.descriptor.name == d.name := by
    rw [Rows.tables_streams, List.any_map]
    rfl
  unfold insertStream Tables.addStream requireSchema
  rw [taken, nextId_streams numbered, if_pos schema]
  split_ifs
  · exact .inl ⟨_, rfl, rfl⟩
  · cases m.nextStreamId with
    | error e => exact .inl ⟨e, rfl, rfl⟩
    | ok id =>
      refine .inr ⟨id, _, rfl, schema, ?_⟩
      simp [bind, Except.bind, Except.map, pure, Except.pure, rows, Rows.tables, StreamAnchor.row]

/-- In memory a record of a stream that exists goes behind the others. -/
theorem insertRecord_of_next {id : Int64} {stream : StreamId} {timestamp : Int64} {payload : Bytes}
    {digest : Digest} (schema : m.hasSchema = true) (known : (m.streamName? stream).isSome)
    (next : m.nextRecordId = .ok id) :
    m.insertRecord stream timestamp payload digest = .ok
      { m with
        records := m.records ++ [(id, ⟨timestamp, stream, payload, digest⟩)]
        lastId := id } := by
  have some : ¬ (m.streamName? stream).isNone := by
    rwa [Bool.not_eq_true, Option.isNone_eq_false_iff]
  unfold insertRecord requireSchema
  rw [if_pos schema, next, if_neg some]
  rfl

/-- In memory a record is inserted as into the tables. -/
theorem insertRecord_cases (schema : m.hasSchema = true) (ordered : m.rows.tables.Ordered)
    (stream : StreamId) (timestamp : Int64) (payload : Bytes) (digest : Digest) :
    (∃ e, m.insertRecord stream timestamp payload digest = .error e ∧
        m.rows.tables.addRecord stream timestamp payload digest.bytes = .error e) ∨
      ∃ id m', m.insertRecord stream timestamp payload digest = .ok m' ∧ m'.hasSchema = true ∧
        m.rows.tables.addRecord stream timestamp payload digest.bytes =
          .ok (id, m'.rows.tables) := by
  have known : (m.rows.tables.streams.any fun s => s.id == stream) =
      !(m.streamName? stream).isNone := by
    rw [Rows.tables_streams, List.any_map, streamName?, Option.isNone_map, Option.not_isNone,
      List.isSome_find?]
    rfl
  unfold insertRecord Tables.addRecord requireSchema
  rw [known, nextId_records ordered, if_pos schema]
  cases (m.streamName? stream).isNone with
  | true => exact .inl ⟨_, rfl, rfl⟩
  | false =>
    cases m.nextRecordId with
    | error e => exact .inl ⟨e, rfl, rfl⟩
    | ok id =>
      refine .inr ⟨id, _, rfl, schema, ?_⟩
      simp [bind, Except.bind, pure, Except.pure, rows, Rows.tables, Record.row]

end MemoryStore

/-! ### Stores that serve tables -/

namespace Store

variable {s : Store} {t : Tables}

/-- No operation of the store fails by itself, and it is ready to serve these tables. -/
inductive Serves (s : Store) (t : Tables) : Prop
  | memory {m : MemoryStore} (engine : s.engine = .memory m) (working : s.faults = FaultPlan.none)
      (schema : m.hasSchema = true) (rows : m.rows.tables = t)
  | connection {c : Connection} (engine : s.engine = .connection c)
      (working : s.faults = FaultPlan.none) (ready : c.Ready t)

theorem change_memory {α : Type} {m : MemoryStore} {method : StoreMethod}
    {inMemory : MemoryStore → Except StoreError (α × MemoryStore)}
    {connected : Connection → Connection × Except StoreError α} (engine : s.engine = .memory m)
    (working : s.faults = FaultPlan.none) :
    s.change method inMemory connected =
      match inMemory m with
      | .error e => (s, .error e)
      | .ok (answer, m) => ({ s with engine := .memory m }, .ok answer) := by
  unfold change
  rw [working, engine]
  rfl

theorem change_connection {α : Type} {c : Connection} {method : StoreMethod}
    {inMemory : MemoryStore → Except StoreError (α × MemoryStore)}
    {connected : Connection → Connection × Except StoreError α}
    (engine : s.engine = .connection c) (working : s.faults = FaultPlan.none) :
    s.change method inMemory connected =
      ({ s with engine := .connection (connected c).1 }, (connected c).2) := by
  unfold change
  rw [working, engine]
  rfl

theorem insertRecord_of_memory {m m' : MemoryStore} {stream : StreamId} {timestamp : Int64}
    {payload : Bytes} {digest : Digest} (engine : s.engine = .memory m)
    (working : s.faults = FaultPlan.none)
    (made : m.insertRecord stream timestamp payload digest = .ok m') :
    s.insertRecord stream timestamp payload digest = ({ s with engine := .memory m' }, .ok ()) := by
  unfold Store.insertRecord
  rw [change_memory engine working, made]
  rfl

namespace Serves

/-- Looking at a store changes nothing that it serves. -/
theorem visit (serves : s.Serves t) (method : StoreMethod) : (s.visit method).Serves t := by
  cases serves with
  | memory engine working schema rows =>
    unfold Store.visit
    rw [working, engine]
    exact .memory engine working schema rows
  | connection engine working ready =>
    unfold Store.visit
    rw [working, engine]
    exact .connection rfl rfl ready.visit

theorem createSchema (serves : s.Serves t) :
    ∃ s', s.createSchema = (s', .ok ()) ∧ s'.Serves t := by
  unfold Store.createSchema
  cases serves with
  | memory engine working schema rows =>
    rw [change_memory engine working]
    exact ⟨_, rfl, .memory rfl working rfl rows⟩
  | connection engine working ready =>
    rw [change_connection engine working, ready.createSchema]
    exact ⟨_, rfl, .connection rfl working ready.visit⟩

theorem prepare (serves : s.Serves t) : ∃ s', s.prepare = (s', .ok ()) ∧ s'.Serves t := by
  unfold Store.prepare
  cases serves with
  | memory engine working schema rows =>
    rw [change_memory engine working]
    exact ⟨_, rfl, .memory rfl working schema rows⟩
  | connection engine working ready =>
    obtain ⟨c', prepared, ready', -⟩ := ready.prepare
    rw [change_connection engine working, prepared]
    exact ⟨_, rfl, .connection rfl working ready'⟩

theorem insertStream (serves : s.Serves t) (ordered : t.Ordered) (d : StreamDescriptor) (n : Nonce)
    (g : Digest) :
    ∃ s', s.insertStream d n g = (s', (t.addStream d n.bytes g.bytes).map Prod.fst) ∧
      s'.Serves (t.after (t.addStream d n.bytes g.bytes)) := by
  unfold Store.insertStream
  cases serves with
  | @memory m engine working schema rows =>
    subst rows
    rw [change_memory engine working]
    obtain ⟨e, refused, same⟩ | ⟨id, m', made, schema', same⟩ :=
      MemoryStore.insertStream_cases schema ordered.numbered d n g
    · rw [refused, same]
      exact ⟨_, rfl, .memory engine working schema rfl⟩
    · rw [made, same]
      exact ⟨_, rfl, .memory rfl working schema' rfl⟩
  | connection engine working ready =>
    obtain ⟨c', inserted, ready', -⟩ := ready.insertStream d n g
    rw [change_connection engine working, inserted]
    exact ⟨_, rfl, .connection rfl working ready'⟩

theorem insertRecord (serves : s.Serves t) (ordered : t.Ordered) (stream : StreamId)
    (timestamp : Int64) (payload : Bytes) (digest : Digest) :
    ∃ s', s.insertRecord stream timestamp payload digest =
        (s', (t.addRecord stream timestamp payload digest.bytes).map fun _ => ()) ∧
      s'.Serves (t.after (t.addRecord stream timestamp payload digest.bytes)) := by
  unfold Store.insertRecord
  cases serves with
  | @memory m engine working schema rows =>
    subst rows
    rw [change_memory engine working]
    obtain ⟨e, refused, same⟩ | ⟨id, m', made, schema', same⟩ :=
      MemoryStore.insertRecord_cases schema ordered stream timestamp payload digest
    · rw [refused, same]
      exact ⟨_, rfl, .memory engine working schema rfl⟩
    · rw [made, same]
      exact ⟨_, rfl, .memory rfl working schema' rfl⟩
  | connection engine working ready =>
    obtain ⟨c', inserted, ready', -⟩ := ready.insertRecord stream timestamp payload digest
    rw [change_connection engine working, inserted]
    exact ⟨_, rfl, .connection rfl working ready'⟩

/-- **A store goes on as the tables that it serves do.** -/
theorem carryOut (serves : s.Serves t) (ordered : t.Ordered) (call : StoreCall) :
    ∃ s', s.carryOut call = (s', (t.carryOut call).map Prod.fst) ∧
      s'.Serves (t.after (t.carryOut call)) := by
  cases call with
  | createSchema =>
    obtain ⟨s', done, serves'⟩ := serves.createSchema
    rw [Store.carryOut, done]
    exact ⟨s', rfl, serves'⟩
  | prepare =>
    obtain ⟨s', done, serves'⟩ := serves.prepare
    rw [Store.carryOut, done]
    exact ⟨s', rfl, serves'⟩
  | insertStream d n g =>
    obtain ⟨s', done, serves'⟩ := serves.insertStream ordered d n g
    rw [Store.carryOut, done, Tables.carryOut, Tables.after_map]
    refine ⟨s', ?_, serves'⟩
    cases t.addStream d n.bytes g.bytes <;> rfl
  | insertRecord stream timestamp payload digest =>
    obtain ⟨s', done, serves'⟩ := serves.insertRecord ordered stream timestamp payload digest
    rw [Store.carryOut, done, Tables.carryOut, Tables.after_map (f := fun _ => none)]
    refine ⟨s', ?_, serves'⟩
    cases t.addRecord stream timestamp payload digest.bytes <;> rfl
  | look method => exact ⟨_, rfl, serves.visit method⟩

theorem carryOutAll (serves : s.Serves t) (ordered : t.Ordered) (calls : List StoreCall) :
    (s.carryOutAll calls).2 = (t.carryOutAll calls).2 ∧
      (s.carryOutAll calls).1.Serves (t.carryOutAll calls).1 ∧ (t.carryOutAll calls).1.Ordered := by
  induction calls generalizing s t with
  | nil => exact ⟨rfl, serves, ordered⟩
  | cons call rest ih =>
    obtain ⟨s', done, serves'⟩ := serves.carryOut ordered call
    obtain ⟨answers, last⟩ := ih serves' (ordered.after_carryOut call)
    refine ⟨?_, ?_⟩
    · rw [Store.carryOutAll, done]
      exact congrArg _ answers
    · rw [Store.carryOutAll, done]
      exact last

/-! ### Queries -/

/-- A query of a store that serves some tables says what they say. -/
theorem answer {α : Type} {method : StoreMethod} {inMemory : MemoryStore → Except StoreError α}
    (said : Tables → Except StoreError α) (serves : s.Serves t)
    (alike : ∀ m : MemoryStore, m.requireSchema = .ok () → m.rows.tables = t →
      inMemory m = said t) :
    s.guarded method (match s.engine with
      | .memory m => inMemory m
      | .connection c => c.query.bind said) = said t := by
  cases serves with
  | memory engine working schema rows =>
    rw [guarded, working, engine]
    exact alike _ (if_pos schema) rows
  | connection engine working ready =>
    rw [guarded, working, engine]
    dsimp only [FaultPlan.none]
    rw [ready.query]
    rfl

theorem page (serves : s.Serves t) (ordered : t.Ordered) (after : ReadPosition) (limit : Nat) :
    s.page after limit = .ok (t.page after limit) :=
  serves.answer (fun t => .ok (t.page after limit)) fun m schema rows => by
    subst rows
    rw [MemoryStore.page_eq ordered, schema]
    rfl

theorem streams (serves : s.Serves t) : s.streams = .ok t.streamList :=
  serves.answer (fun t => .ok t.streamList) fun m schema rows => by
    rw [MemoryStore.streamList_eq, schema, rows]
    rfl

theorem statistics (serves : s.Serves t) (numbered : t.Numbered) :
    s.statistics = .ok t.statistics :=
  serves.answer (fun t => .ok t.statistics) fun m schema rows => by
    subst rows
    rw [MemoryStore.statistics_eq numbered, schema]
    rfl

theorem anchors (serves : s.Serves t) : s.anchors = t.anchorList :=
  serves.answer Tables.anchorList fun m schema rows => by
    subst rows
    rw [MemoryStore.anchorList, schema, Rows.anchorList_tables]
    rfl

theorem chain (serves : s.Serves t) (id : StreamId) : s.chain id = t.chain id :=
  serves.answer (fun t => t.chain id) fun m schema rows => by
    subst rows
    rw [MemoryStore.chain, schema, Rows.chain_tables]
    rfl

/-- Before the first call. -/
theorem inMemory : Store.inMemory.createSchema.1.Serves {} := .memory rfl rfl rfl rfl

theorem inDatabase : Store.inDatabase.Serves {} :=
  .connection rfl rfl
    { writable := rfl
      database := ⟨⟨some [1], some {}, false⟩, ⟨⟨2, rfl⟩, rfl, rfl, rfl, rfl⟩, ⟨rfl, rfl, rfl⟩⟩ }

end Serves

/-- Both stores answer all queries, and alike. -/
structure Agree (s s' : Store) : Prop where
  page : ∀ after limit, ∃ page, s.page after limit = .ok page ∧ s'.page after limit = .ok page
  streams : ∃ descriptors, s.streams = .ok descriptors ∧ s'.streams = .ok descriptors
  statistics : ∃ statistics, s.statistics = .ok statistics ∧ s'.statistics = .ok statistics
  anchors : ∃ anchors, s.anchors = .ok anchors ∧ s'.anchors = .ok anchors
  chain : ∀ id, ∃ chain, s.chain id = .ok chain ∧ s'.chain id = .ok chain

/-- Stores that serve the same typed rows agree. -/
theorem Agree.of_serves {s' : Store} {rows : Rows} (h : s.Serves rows.tables)
    (h' : s'.Serves rows.tables) (ordered : rows.tables.Ordered) : s.Agree s' where
  page after limit := ⟨_, h.page ordered after limit, h'.page ordered after limit⟩
  streams := ⟨_, h.streams, h'.streams⟩
  statistics := ⟨_, h.statistics ordered.numbered, h'.statistics ordered.numbered⟩
  anchors := ⟨rows.anchors, h.anchors.trans rows.anchorList_tables,
    h'.anchors.trans rows.anchorList_tables⟩
  chain id := ⟨rows.chain id, (h.chain id).trans (rows.chain_tables id),
    (h'.chain id).trans (rows.chain_tables id)⟩

/-- **The two stores are alike.** After the same calls, whatever they are, a store in memory and one
in a database of its own have given the same answers and agree on all queries; the answers are
numbers, refusals of a taken name, of a missing stream, or none, unless there were more calls than
row numbers. -/
theorem memory_database_alike (calls : List StoreCall) :
    let memory := Store.inMemory.createSchema.1.carryOutAll calls
    let database := Store.inDatabase.carryOutAll calls
    memory.2 = database.2 ∧ memory.1.Agree database.1 ∧
      (List.Forall₂ StoreCall.Admits calls memory.2 ∨ Tables.maxLimit < calls.length) := by
  intro memory database
  obtain ⟨answers, serves, ordered⟩ := Serves.inMemory.carryOutAll .empty calls
  obtain ⟨answers', serves', -⟩ := Serves.inDatabase.carryOutAll .empty calls
  obtain ⟨rows, same⟩ : ∃ rows : Rows, (Tables.carryOutAll {} calls).1 = rows.tables :=
    Tables.exists_rows_carryOutAll {} calls
  rw [same] at serves serves' ordered
  refine ⟨answers.trans answers'.symm, .of_serves serves serves' ordered, ?_⟩
  have within : Tables.Within {} 0 := { streams := fun _ h => nomatch h
                                        records := fun _ h => nomatch h }
  rcases Nat.lt_or_ge Tables.maxLimit calls.length with many | few
  · exact .inr many
  · refine .inl ?_
    rw [answers]
    exact within.carryOutAll (by omega)

end Store

end SealedLog

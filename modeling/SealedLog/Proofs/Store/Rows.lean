import Mathlib.Algebra.Ring.Nat
import SealedLog.Proofs.Except
import SealedLog.Proofs.Store.Connection
import SealedLog.Proofs.Store.Number
import SealedLog.Store

/-!
# The rows of a store

What a store holds, whatever keeps it: its streams in the order of creation and its records in the
order of insertion. Octet strings of a database may have any length; rows whose digests and nonces
have 32 octets are typed.

* `Store.tables`: the tables of a store in memory or in a database;
* `MemoryStore.tables_replaceDigest`: what a replaced digest is in the tables;
* `Rows`, `Rows.tables`: typed rows and the tables that they make;
* `Store.Holds`: the tables of a store are those of these rows;
* `Tables.Lists`: the rows are these streams and their records;
* `Store.tables_anchorList`, `Store.tables_chain`: an answer is what the tables say;
* `Store.lists_of_answers`: what a store answers are all its rows;
* `Store.anchors_of_holds`, `Store.chain_of_holds`: of a store with typed rows it shows these.
-/

namespace SealedLog

/-- The row of a stream. -/
def StreamAnchor.row (a : StreamAnchor) : StreamRow :=
  ⟨a.id, a.descriptor, a.nonce.bytes, a.digest.bytes⟩

/-- The row of a record with this number. -/
def Record.row (r : Record) (id : Int64) : RecordRow :=
  ⟨id, r.stream, r.timestamp, r.payload, r.digest.bytes⟩

/-- A row tells its stream. -/
theorem StreamAnchor.row_injective : Function.Injective StreamAnchor.row := by
  intro a b same
  have id : a.id = b.id := congrArg StreamRow.id same
  have descriptor : a.descriptor = b.descriptor := congrArg StreamRow.descriptor same
  have nonce : a.nonce = b.nonce := Nonce.ext (congrArg StreamRow.nonce same)
  have digest : a.digest = b.digest := Digest.ext (congrArg StreamRow.digest same)
  cases a
  cases b
  simp_all

/-- A row tells its record. -/
theorem Record.row_injective (id : Int64) : Function.Injective fun r : Record => r.row id := by
  intro r s same
  have stream : r.stream = s.stream := congrArg RecordRow.stream same
  have timestamp : r.timestamp = s.timestamp := congrArg RecordRow.timestamp same
  have payload : r.payload = s.payload := congrArg RecordRow.payload same
  have digest : r.digest = s.digest := Digest.ext (congrArg RecordRow.digest same)
  cases r
  cases s
  simp_all

theorem Record.eq_of_rows {rows : List RecordRow} {rs rs' : List Record}
    (h : List.Forall₂ (fun row r => row = r.row row.id) rows rs)
    (h' : List.Forall₂ (fun row r => row = r.row row.id) rows rs') : rs = rs' := by
  induction h generalizing rs' with
  | nil => exact (List.forall₂_nil_left_iff.1 h').symm
  | cons same _ ih =>
    obtain ⟨r', rest', same', others, rfl⟩ := List.forall₂_cons_left_iff.1 h'
    rw [Record.row_injective _ (same.symm.trans same'), ih others]

/-- Streams and numbered records. -/
structure Rows where
  anchors : List StreamAnchor := []
  records : List (Int64 × Record) := []
  deriving DecidableEq

namespace Rows

/-- The tables with these rows. -/
def tables (rows : Rows) : Tables where
  streams := rows.anchors.map StreamAnchor.row
  records := rows.records.map fun r => r.2.row r.1

/-- The records of a stream in the order of their numbers. -/
def chain (rows : Rows) (id : StreamId) : List Record :=
  (rows.records.map Prod.snd).filter fun r => r.stream == id

@[simp] theorem tables_streams (rows : Rows) :
    rows.tables.streams = rows.anchors.map StreamAnchor.row := rfl

@[simp] theorem tables_records (rows : Rows) :
    rows.tables.records = rows.records.map fun r => r.2.row r.1 := rfl

/-- The rows with one more stream. -/
def withAnchor (rows : Rows) (a : StreamAnchor) : Rows :=
  { rows with anchors := rows.anchors ++ [a] }

/-- The rows with one more record. -/
def withRecord (rows : Rows) (id : Int64) (r : Record) : Rows :=
  { rows with records := rows.records ++ [(id, r)] }

end Rows

theorem Tables.record_eq_ok {row : RecordRow} {r : Record} (h : Tables.record row = .ok r) :
    r.row row.id = row := by
  rcases row with ⟨id, stream, timestamp, payload, digest⟩
  unfold Tables.record Digest.ofBytes? at h
  dsimp only at h
  split_ifs at h
  cases h
  rfl

theorem Tables.anchor_eq_ok {row : StreamRow} {a : StreamAnchor} (h : Tables.anchor row = .ok a) :
    a.row = row := by
  rcases row with ⟨id, descriptor, nonce, digest⟩
  unfold Tables.anchor Nonce.ofBytes? Digest.ofBytes? at h
  dsimp only at h
  split_ifs at h
  cases h
  rfl

/-- The streams that tables answer are their rows. -/
theorem Tables.streams_of_anchorList {t : Tables} {as : List StreamAnchor}
    (h : t.anchorList = .ok as) : t.streams = as.map StreamAnchor.row := by
  have each := (Except.mapM_eq_ok_iff.1 h).imp fun _ _ made => (anchor_eq_ok made).symm
  rwa [← List.forall₂_map_right_iff (R := Eq), List.forall₂_eq_eq_eq] at each

/-- The records of a stream, in the order of their numbers. -/
def Tables.recordsOf (t : Tables) (id : StreamId) : List RecordRow :=
  t.records.filter fun r => r.stream == id

/-- The rows are these streams, in their order, and the records of each. -/
structure Tables.Lists (t : Tables) (as : List StreamAnchor) (chain : StreamId → List Record) :
    Prop where
  streams : t.streams = as.map StreamAnchor.row
  records : ∀ a ∈ as,
    List.Forall₂ (fun row r => row = r.row row.id) (t.recordsOf a.id) (chain a.id)

theorem Tables.records_of_chain {t : Tables} {id : StreamId} {rs : List Record}
    (h : t.chain id = .ok rs) :
    List.Forall₂ (fun row r => row = r.row row.id) (t.recordsOf id) rs :=
  (Except.mapM_eq_ok_iff.1 h).imp fun _ _ made => (record_eq_ok made).symm

/-- Rows are counted key by key. -/
theorem sum_length_filter {α β : Type} [DecidableEq β] {key : α → β} {keys : List β}
    (distinct : keys.Nodup) {rows : List α} (mem : ∀ row ∈ rows, key row ∈ keys) :
    (keys.map fun k => (rows.filter fun row => key row == k).length).sum = rows.length := by
  induction keys generalizing rows with
  | nil =>
    have none : rows = [] := List.eq_nil_iff_forall_not_mem.2 fun row hr => nomatch mem row hr
    rw [none]
    rfl
  | cons k keys ih =>
    rw [List.nodup_cons] at distinct
    -- the rows of the other keys are among those that are not of this one
    have others : ∀ row ∈ rows.filter fun row => !(key row == k), key row ∈ keys := by
      intro row hr
      obtain ⟨stored, other⟩ := List.mem_filter.1 hr
      exact (List.mem_cons.1 (mem row stored)).resolve_left (by simpa using other)
    have kept : ∀ k' ∈ keys, (rows.filter fun row => key row == k') =
        (rows.filter fun row => !(key row == k)).filter fun row => key row == k' := by
      intro k' hk
      rw [List.filter_filter]
      refine List.filter_congr fun row _ => ?_
      by_cases here : key row = k'
      · have ne : key row ≠ k := fun same => distinct.1 (same ▸ here ▸ hk)
        simp [here, here ▸ ne]
      · simp [here]
    rw [List.map_cons, List.sum_cons, List.map_congr_left fun k' hk => by rw [kept k' hk],
      ih distinct.2 others, ← List.length_eq_length_filter_add]

/-- All records are counted, where streams have different numbers and records are of streams. -/
theorem Tables.Lists.sum_length {t : Tables} {as : List StreamAnchor}
    {chain : StreamId → List Record} (lists : t.Lists as chain)
    (distinct : (t.streams.map StreamRow.id).Nodup)
    (owned : ∀ row ∈ t.records, ∃ s ∈ t.streams, s.id = row.stream) :
    (as.map fun a => (chain a.id).length).sum = t.records.length := by
  have lengths : (as.map fun a => (chain a.id).length) =
      (t.streams.map StreamRow.id).map fun id => (t.recordsOf id).length := by
    rw [lists.streams, List.map_map, List.map_map]
    exact List.map_congr_left fun a mem => (lists.records a mem).length_eq.symm
  rw [lengths]
  refine sum_length_filter distinct fun row mem => ?_
  obtain ⟨s, there, same⟩ := owned row mem
  exact List.mem_map.2 ⟨s, there, same⟩

namespace Rows

theorem anchorList_tables (rows : Rows) : rows.tables.anchorList = .ok rows.anchors := by
  have each : ∀ a : StreamAnchor, Tables.anchor a.row = .ok a := by
    intro a
    simp [Tables.anchor, StreamAnchor.row, Nonce.ofBytes?, Digest.ofBytes?, a.nonce.length_eq,
      a.digest.length_eq]
  rw [Tables.anchorList, tables_streams, Except.mapM_eq_ok_iff, List.forall₂_map_left_iff]
  exact List.forall₂_same.2 fun a _ => each a

theorem chain_tables (rows : Rows) (id : StreamId) :
    rows.tables.chain id = .ok (rows.chain id) := by
  have each : ∀ r : Int64 × Record, Tables.record (r.2.row r.1) = .ok r.2 := by
    intro r
    simp [Tables.record, Record.row, Digest.ofBytes?, r.2.digest.length_eq]
  have split : rows.tables.records.filter (fun r => r.stream == id) =
      (rows.records.filter fun r => r.2.stream == id).map fun r => r.2.row r.1 := by
    rw [tables_records, List.filter_map]
    rfl
  have same : rows.chain id = (rows.records.filter fun r => r.2.stream == id).map Prod.snd := by
    rw [chain, List.filter_map]
    rfl
  rw [Tables.chain, split, same, Except.mapM_eq_ok_iff, List.forall₂_map_left_iff,
    List.forall₂_map_right_iff]
  exact List.forall₂_same.2 fun r _ => each r

end Rows

/-- The rows of a store in memory. -/
def MemoryStore.rows (m : MemoryStore) : Rows := ⟨m.anchors, m.records⟩

/-- With another digest a record in memory keeps all else. -/
theorem MemoryStore.tables_replaceDigest (m : MemoryStore) (id : Int64) (digest : Digest) :
    (m.replaceDigest id digest).1.rows.tables =
      (Database.setRecord m.rows.tables id fun r => { r with digest := digest.bytes }).1 := by
  have each : (m.replaceDigest id digest).1.records.map (fun r => r.2.row r.1) =
      (m.records.map fun r => r.2.row r.1).map
        fun r => if r.id = id then { r with digest := digest.bytes } else r := by
    rw [MemoryStore.replaceDigest, List.map_map, List.map_map]
    refine List.map_congr_left fun r _ => ?_
    by_cases here : r.1 = id <;> simp [Record.row, here]
  exact congrArg (Tables.mk (m.anchors.map StreamAnchor.row)) each

namespace Store

/-- The tables of a store. -/
def tables (s : Store) : Tables :=
  match s.engine with
  | .memory m => m.rows.tables
  | .connection c => c.tables

/-- The store holds these rows. -/
def Holds (s : Store) (rows : Rows) : Prop := s.tables = rows.tables

/-! ### Answers -/

theorem guarded_eq_ok_iff {α : Type} {s : Store} {method : StoreMethod}
    {answer : Except StoreError α} {a : α} :
    s.guarded method answer = .ok a ↔ s.faults method = none ∧ answer = .ok a := by
  unfold guarded
  cases s.faults method <;> simp

theorem of_guarded_eq_ok {α : Type} {s : Store} {method : StoreMethod}
    {answer : Except StoreError α} {a : α} (h : s.guarded method answer = .ok a) :
    answer = .ok a :=
  (guarded_eq_ok_iff.1 h).2

/-- What a store answers, its tables say. -/
theorem tables_anchorList {s : Store} {as : List StreamAnchor} (h : s.anchors = .ok as) :
    s.tables.anchorList = .ok as := by
  replace h := of_guarded_eq_ok h
  unfold tables
  cases he : s.engine with
  | memory m =>
    simp only [he] at h
    obtain ⟨_, _, h⟩ := Except.bind_eq_ok_iff.1 h
    cases h
    exact m.rows.anchorList_tables
  | connection c =>
    simp only [he] at h
    obtain ⟨t, ht, h⟩ := Except.bind_eq_ok_iff.1 h
    dsimp only
    rw [Connection.tables_of_query ht]
    exact h

theorem tables_chain {s : Store} {id : StreamId} {rs : List Record} (h : s.chain id = .ok rs) :
    s.tables.chain id = .ok rs := by
  replace h := of_guarded_eq_ok h
  unfold tables
  cases he : s.engine with
  | memory m =>
    simp only [he] at h
    obtain ⟨_, _, h⟩ := Except.bind_eq_ok_iff.1 h
    cases h
    exact m.rows.chain_tables id
  | connection c =>
    simp only [he] at h
    obtain ⟨t, ht, h⟩ := Except.bind_eq_ok_iff.1 h
    dsimp only
    rw [Connection.tables_of_query ht]
    exact h

/-- The streams that a store answers, and the records that it answers for them, are its rows. -/
theorem lists_of_answers {s : Store} {as : List StreamAnchor} {chain : StreamId → List Record}
    (anchors : s.anchors = .ok as) (chains : ∀ a ∈ as, s.chain a.id = .ok (chain a.id)) :
    s.tables.Lists as chain where
  streams := Tables.streams_of_anchorList (tables_anchorList anchors)
  records a mem := Tables.records_of_chain (tables_chain (chains a mem))

/-- A store that holds typed rows answers them, if it answers. -/
theorem anchors_of_holds {s : Store} {rows : Rows} {as : List StreamAnchor} (holds : s.Holds rows)
    (h : s.anchors = .ok as) : as = rows.anchors := by
  have said := tables_anchorList h
  rw [holds, Rows.anchorList_tables] at said
  exact (Except.ok.inj said).symm

theorem chain_of_holds {s : Store} {rows : Rows} {id : StreamId} {rs : List Record}
    (holds : s.Holds rows) (h : s.chain id = .ok rs) : rs = rows.chain id := by
  have said := tables_chain h
  rw [holds, Rows.chain_tables] at said
  exact (Except.ok.inj said).symm

/-- The chain of a stream has records of that stream alone, whatever the store holds. -/
theorem stream_of_mem_chain {s : Store} {id : StreamId} {rs : List Record} (h : s.chain id = .ok rs)
    {r : Record} (hr : r ∈ rs) : r.stream = id := by
  obtain ⟨row, hrow, made⟩ := Except.exists_of_mem_mapM (tables_chain h) hr
  have same : row.stream = id := by simpa using (List.mem_filter.1 hrow).2
  rw [← same, ← Tables.record_eq_ok made]
  rfl

end Store

end SealedLog

import SealedLog.Proofs.Store.Alike

/-!
# Stores that inserts led to

A store that was empty, in memory or in a database, holds what the calls since then have put into
it. So does a database that is opened later, for reading alone or for writing.

* `Tables.Regular`: tables as inserts leave them, `Regular.carryOutAll`;
* `Regular.messages_filter`: the records under the name of a stream are those under its number;
* `Store.Offers`: a store that answers all queries from these tables, memory or database;
* `Store.Reached`, `Reached.offers`: a store that inserts led to.
-/

namespace SealedLog

namespace Tables

variable {t : Tables} {s : StreamRow}

/-- Tables as inserts leave them: in order, every stream under a name of its own, every octet string
of its length. -/
structure Regular (t : Tables) : Prop where
  ordered : t.Ordered
  named : (t.streams.map fun s => s.descriptor.name).Nodup
  typed : ∃ rows : Rows, t = rows.tables

namespace Regular

theorem empty : Regular {} := ⟨.empty, List.nodup_nil, {}, rfl⟩

/-- An insert leaves such tables, whether or not it is refused. -/
theorem after_carryOut (regular : t.Regular) (call : StoreCall) :
    (t.after (t.carryOut call)).Regular where
  ordered := regular.ordered.after_carryOut call
  named := by
    cases call with
    | insertStream d n g =>
      rw [carryOut, after_map]
      cases made : t.addStream d n.bytes g.bytes with
      | error e => exact regular.named
      | ok put =>
        obtain ⟨unused, -, same⟩ := addStream_eq_ok made
        rw [Tables.after, same, withStream, List.map_append]
        refine List.Nodup.append regular.named (List.nodup_singleton _) ?_
        rw [List.map_singleton, List.disjoint_singleton, List.mem_map]
        rintro ⟨s, hs, taken⟩
        exact unused s hs taken
    | insertRecord stream timestamp payload g =>
      rw [carryOut, after_map (f := fun _ => none)]
      cases made : t.addRecord stream timestamp payload g.bytes with
      | error e => exact regular.named
      | ok put =>
        obtain ⟨-, -, same⟩ := addRecord_eq_ok made
        rw [Tables.after, same]
        exact regular.named
    | createSchema => exact regular.named
    | prepare => exact regular.named
    | look method => exact regular.named
  typed := by
    obtain ⟨rows, rfl⟩ := regular.typed
    exact exists_rows_after_carryOut rows call

theorem carryOutAll (regular : t.Regular) (calls : List StoreCall) :
    (t.carryOutAll calls).1.Regular := by
  induction calls generalizing t with
  | nil => exact regular
  | cons call rest ih => exact ih (regular.after_carryOut call)

/-- The name of a stream is that of no other stream. -/
theorem eq_of_name (regular : t.Regular) {s' : StreamRow} (hs : s ∈ t.streams)
    (hs' : s' ∈ t.streams) (same : s.descriptor.name = s'.descriptor.name) : s = s' :=
  List.inj_on_of_nodup_map regular.named hs hs' same

/-- The records that are read under the name of a stream are those under its number. -/
theorem messages_filter (regular : t.Regular) (hs : s ∈ t.streams) :
    (t.messages.filter fun m => m.message.stream == s.descriptor.name) =
      (t.records.filter fun r => r.stream == s.id).map fun r => message (r, s) := by
  have numbered := regular.ordered.numbered
  have byNumber : (t.joined.filter fun p => p.2.descriptor.name == s.descriptor.name) =
      t.joined.filter fun p => p.2.id.number == s.id.number := by
    refine List.filter_congr fun p hp => ?_
    rw [numbered.joined_eq] at hp
    obtain ⟨r, -, made⟩ := List.mem_filterMap.1 hp
    obtain ⟨s', found, rfl⟩ := Option.map_eq_some_iff.1 made
    have stored : s' ∈ t.streams := List.mem_of_find?_eq_some found
    rw [Bool.eq_iff_iff, beq_iff_eq, beq_iff_eq]
    constructor
    · intro same
      rw [regular.eq_of_name stored hs same]
    · intro same
      rw [numbered.eq_of_id stored hs (congrArg StreamId.mk same)]
  rw [messages, List.filter_map]
  show (t.joined.filter fun p => p.2.descriptor.name == s.descriptor.name).map message = _
  rw [byNumber, numbered.joined_filter hs, List.map_map]
  rfl

/-- Every record is read under the name of a stream. -/
theorem exists_stream (regular : t.Regular) {m : StoredMessage} (h : m ∈ t.messages) :
    ∃ s ∈ t.streams, m.message.stream = s.descriptor.name := by
  obtain ⟨r, -, s, found, rfl⟩ := regular.ordered.exists_of_mem_messages h
  exact ⟨s, List.mem_of_find?_eq_some found, rfl⟩

end Regular

end Tables

namespace Store

variable {s : Store} {t : Tables}

/-- A store that answers all queries from these tables: one that goes on as they do, or a database
in good order that may be open for reading alone. -/
inductive Offers (s : Store) (t : Tables) : Prop
  | serves (serves : s.Serves t)
  | presents (presents : s.Presents t)

/-- What serves tables is held in memory, or in a database in good order. -/
theorem Serves.memory_or_presents (serves : s.Serves t) :
    (∃ m : MemoryStore, s.engine = .memory m ∧ s.faults = FaultPlan.none ∧ m.rows.tables = t) ∨
      s.Presents t := by
  cases serves with
  | memory engine working schema rows => exact .inl ⟨_, engine, working, rows⟩
  | connection engine working ready =>
    obtain ⟨-, d, steady, current⟩ := ready
    exact .inr ⟨working, _, d, engine, steady, current⟩

namespace Offers

theorem visit (offers : s.Offers t) (method : StoreMethod) : (s.visit method).Offers t := by
  cases offers with
  | serves serves => exact .serves (serves.visit method)
  | presents presents => exact .presents (presents.visit method)

theorem page (offers : s.Offers t) (ordered : t.Ordered) (after : ReadPosition) (limit : Nat) :
    s.page after limit = .ok (t.page after limit) := by
  cases offers with
  | serves serves => exact serves.page ordered after limit
  | presents presents => exact presents.page after limit

theorem streams (offers : s.Offers t) : s.streams = .ok t.streamList := by
  cases offers with
  | serves serves => exact serves.streams
  | presents presents => exact presents.streams

theorem statistics (offers : s.Offers t) (numbered : t.Numbered) :
    s.statistics = .ok t.statistics := by
  cases offers with
  | serves serves => exact serves.statistics numbered
  | presents presents => exact presents.statistics

theorem anchors (offers : s.Offers t) : s.anchors = t.anchorList := by
  cases offers with
  | serves serves => exact serves.anchors
  | presents presents => exact presents.anchors

theorem chain (offers : s.Offers t) (id : StreamId) : s.chain id = t.chain id := by
  cases offers with
  | serves serves => exact serves.chain id
  | presents presents => exact presents.chain id

theorem memory_or_presents (offers : s.Offers t) :
    (∃ m : MemoryStore, s.engine = .memory m ∧ s.faults = FaultPlan.none ∧ m.rows.tables = t) ∨
      s.Presents t := by
  cases offers with
  | serves serves => exact serves.memory_or_presents
  | presents presents => exact .inr presents

theorem size (offers : s.Offers t) : ∃ octets, s.size = .ok octets := by
  obtain ⟨m, engine, working, -⟩ | presents := offers.memory_or_presents
  · rw [Store.size, guarded, working, engine]
    exact ⟨_, rfl⟩
  · exact presents.size

theorem recordCount (offers : s.Offers t) : s.recordCount = t.records.length := by
  obtain ⟨m, engine, -, rfl⟩ | presents := offers.memory_or_presents
  · rw [Store.recordCount, engine, Rows.tables_records, List.length_map]
    rfl
  · exact presents.recordCount

theorem tables (offers : s.Offers t) : s.tables = t := by
  obtain ⟨m, engine, -, rfl⟩ | presents := offers.memory_or_presents
  · exact tables_memory engine
  · exact presents.tables

end Offers

/-- A store that inserts led to: it was empty, in memory or in a database, and these calls were made
of it; or it is a database in good order that holds what such calls have put into it. -/
inductive Reached (s : Store) : Prop
  | calls {start : Store} (empty : start.Serves {}) (calls : List StoreCall)
      (same : (start.carryOutAll calls).1 = s)
  | reopened (calls : List StoreCall) (presents : s.Presents (Tables.carryOutAll {} calls).1)

/-- **A store that inserts led to answers from tables as inserts leave them.** -/
theorem Reached.offers (reached : s.Reached) : ∃ t, t.Regular ∧ s.Offers t := by
  cases reached with
  | calls empty calls same =>
    subst same
    exact ⟨_, .carryOutAll .empty calls, .serves (empty.carryOutAll .empty calls).2.1⟩
  | reopened calls presents => exact ⟨_, .carryOutAll .empty calls, .presents presents⟩

end Store

end SealedLog

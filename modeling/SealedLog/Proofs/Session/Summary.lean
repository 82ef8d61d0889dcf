import Mathlib.Algebra.BigOperators.Group.List.Basic
import SealedLog.Proofs.Session.Independence

/-!
# Metadata agree with a reading

The metadata of a storage are taken from the statistics of its streams, and the records are read
page by page. Of a store that inserts led to, both say the same: how many records there are, the
time of the first one and from there to the last one, and of which streams.

* `StreamStatistics.Tallies`: statistics count these times, and range from the least to the
  greatest;
* `StreamStatistics.Covers`: statistics of some streams cover the times of all of their records;
* `Regular.tallies`, `Regular.covers`: those of tables do;
* `StorageMetadata.Describes`, `Session.metadata_describes`: metadata say what a reading shows.
-/

namespace SealedLog

/-- The time between two moments, as far as it fits 63 bits. -/
theorem toInt_timeBetween {first last : Int64} (h : first ≤ last) :
    (timeBetween first last).toInt = min (last.toInt - first.toInt) (2 ^ 63 - 1) := by
  have order := Int64.le_iff_toInt_le.1 h
  have low : Int64.minValue.toInt = -9223372036854775808 := by decide
  have high : Int64.maxValue.toInt = 9223372036854775807 := by decide
  by_cases fits : last.toInt - first.toInt ≤ 9223372036854775807
  · rw [timeBetween, Int64.toInt_ofIntClamp (by omega) (by omega)]
    omega
  · have clamped : timeBetween first last = Int64.maxValue := by
      rw [timeBetween, Int64.ofIntClamp, dif_pos (by omega), dif_neg (by omega)]
    rw [clamped, high]
    omega

/-- The least one of times that go upwards is the first. -/
theorem min?_of_sorted {times : List Int64} (sorted : times.Pairwise (· ≤ ·)) :
    times.min? = times.head? := by
  cases times with
  | nil => rfl
  | cons first rest =>
    refine List.min?_eq_some_iff.2 ⟨List.mem_cons_self, fun b hb => ?_⟩
    rcases List.mem_cons.1 hb with rfl | later
    · exact Int64.le_refl _
    · exact (List.pairwise_cons.1 sorted).1 b later

/-- The greatest one of times that go upwards is the last. -/
theorem max?_of_sorted {times : List Int64} (sorted : times.Pairwise (· ≤ ·)) :
    times.max? = times.getLast? := by
  induction times using List.reverseRecOn with
  | nil => rfl
  | append_singleton times last _ =>
    rw [List.getLast?_concat]
    refine List.max?_eq_some_iff.2 ⟨List.mem_concat_self, fun b hb => ?_⟩
    rcases List.mem_append.1 hb with earlier | same
    · exact (List.pairwise_append.1 sorted).2.2 b earlier last (List.mem_singleton_self _)
    · rw [List.mem_singleton.1 same]
      exact Int64.le_refl _

/-- No carry is lost in a sum that fits. -/
theorem toNat_foldl_add {ns : List UInt64} (fits : (ns.map UInt64.toNat).sum < 2 ^ 64) :
    (ns.foldl (· + ·) 0).toNat = (ns.map UInt64.toNat).sum := by
  induction ns using List.reverseRecOn with
  | nil => rfl
  | append_singleton ns n ih =>
    rw [List.map_append, List.sum_append, List.map_singleton, List.sum_singleton] at fits ⊢
    rw [List.foldl_append, List.foldl_cons, List.foldl_nil, UInt64.toNat_add, ih (by omega),
      Nat.mod_eq_of_lt fits]

theorem sum_filterMap {α β : Type} (f : α → Option β) (g : β → Nat) (xs : List α) :
    ((xs.filterMap f).map g).sum = (xs.map fun x => ((f x).map g).getD 0).sum := by
  induction xs with
  | nil => rfl
  | cons x xs ih =>
    rw [List.map_cons, List.sum_cons, ← ih]
    cases made : f x with
    | none => rw [List.filterMap_cons_none made, Option.map_none, Option.getD_none, Nat.zero_add]
    | some y => rw [List.filterMap_cons_some made, List.map_cons, List.sum_cons]; rfl

namespace StreamStatistics

variable {st : StreamStatistics} {sts : List StreamStatistics} {d : StreamDescriptor}
  {times times' : List Int64}

/-- The statistics count these times, and give the least and the greatest of them. -/
structure Tallies (st : StreamStatistics) (times : List Int64) : Prop where
  count : st.count.toNat = times.length
  least : times.min? = some st.minTimestamp
  greatest : times.max? = some st.maxTimestamp

theorem Tallies.perm (tallies : st.Tallies times) (perm : times.Perm times') :
    st.Tallies times' where
  count := tallies.count.trans perm.length_eq
  least := by
    obtain ⟨mem, low⟩ := List.min?_eq_some_iff.1 tallies.least
    exact List.min?_eq_some_iff.2 ⟨perm.subset mem, fun b hb => low b (perm.mem_iff.2 hb)⟩
  greatest := by
    obtain ⟨mem, high⟩ := List.max?_eq_some_iff.1 tallies.greatest
    exact List.max?_eq_some_iff.2 ⟨perm.subset mem, fun b hb => high b (perm.mem_iff.2 hb)⟩

theorem tallies_of_ofTimes? (fits : times.length < 2 ^ 64) (h : ofTimes? d times = some st) :
    st.descriptor = d ∧ st.Tallies times := by
  unfold ofTimes? at h
  split at h
  · next low high least greatest =>
    obtain rfl := Option.some.inj h
    exact ⟨rfl, UInt64.toNat_ofNat_of_lt' fits, least, greatest⟩
  · cases h

/-- There are statistics of a stream if it has records. -/
theorem map_descriptor_ofTimes? (d : StreamDescriptor) (times : List Int64) :
    (ofTimes? d times).map descriptor = if times.isEmpty then none else some d := by
  cases times with
  | nil => rfl
  | cons first rest => rfl

/-- How many times the statistics of a stream count. -/
theorem count_ofTimes? (fits : times.length < 2 ^ 64) :
    ((ofTimes? d times).map fun st => st.count.toNat).getD 0 = times.length := by
  cases made : ofTimes? d times with
  | some st => exact (tallies_of_ofTimes? fits made).2.count
  | none =>
    cases times with
    | nil => rfl
    | cons first rest => cases made

/-- Each of these times is in the range of one of the statistics, and the ends of the ranges are
among the times. -/
structure Covers (sts : List StreamStatistics) (times : List Int64) : Prop where
  least : ∀ st ∈ sts, st.minTimestamp ∈ times
  greatest : ∀ st ∈ sts, st.maxTimestamp ∈ times
  within : ∀ x ∈ times, ∃ st ∈ sts, st.minTimestamp ≤ x ∧ x ≤ st.maxTimestamp

theorem Covers.eq_nil_iff (covers : Covers sts times) : sts = [] ↔ times = [] := by
  constructor
  · rintro rfl
    refine List.eq_nil_iff_forall_not_mem.2 fun x hx => ?_
    obtain ⟨st, none, -⟩ := covers.within x hx
    exact List.not_mem_nil none
  · rintro rfl
    exact List.eq_nil_iff_forall_not_mem.2 fun st hst => List.not_mem_nil (covers.least st hst)

theorem Covers.min?_eq (covers : Covers sts times) :
    (sts.map minTimestamp).min? = times.min? := by
  cases low : times.min? with
  | none =>
    rw [covers.eq_nil_iff.2 (List.min?_eq_none_iff.1 low)]
    rfl
  | some first =>
    obtain ⟨mem, below⟩ := List.min?_eq_some_iff.1 low
    obtain ⟨st, hst, under, -⟩ := covers.within first mem
    have same := Int64.le_antisymm under (below _ (covers.least st hst))
    refine List.min?_eq_some_iff.2 ⟨same ▸ List.mem_map_of_mem hst, fun b hb => ?_⟩
    obtain ⟨st', hst', rfl⟩ := List.mem_map.1 hb
    exact below _ (covers.least st' hst')

theorem Covers.max?_eq (covers : Covers sts times) :
    (sts.map maxTimestamp).max? = times.max? := by
  cases high : times.max? with
  | none =>
    rw [covers.eq_nil_iff.2 (List.max?_eq_none_iff.1 high)]
    rfl
  | some last =>
    obtain ⟨mem, above⟩ := List.max?_eq_some_iff.1 high
    obtain ⟨st, hst, -, exceeds⟩ := covers.within last mem
    have same := Int64.le_antisymm (above _ (covers.greatest st hst)) exceeds
    refine List.max?_eq_some_iff.2 ⟨same ▸ List.mem_map_of_mem hst, fun b hb => ?_⟩
    obtain ⟨st', hst', rfl⟩ := List.mem_map.1 hb
    exact above _ (covers.greatest st' hst')

end StreamStatistics

open StreamStatistics

/-! ### Statistics of tables -/

/-- The records of a stream among records that were read. -/
def messagesOf (name : String) (read : List Message) : List Message :=
  read.filter fun m => m.stream == name

namespace Tables.Regular

variable {t : Tables} {read : List Message} {s : StreamRow} {st : StreamStatistics}

/-- What was read of a stream has the times of its records. -/
theorem times_perm (regular : t.Regular)
    (all : read.Perm (t.messages.map StoredMessage.message)) (hs : s ∈ t.streams) :
    ((messagesOf s.descriptor.name read).map Message.timestamp).Perm (t.timesOf s.id) := by
  have own : (t.messages.map StoredMessage.message).filter
      (fun m => m.stream == s.descriptor.name) =
      (t.records.filter fun r => r.stream == s.id).map fun r => (message (r, s)).message := by
    rw [List.filter_map]
    show (t.messages.filter fun m => m.message.stream == s.descriptor.name).map _ = _
    rw [regular.messages_filter hs, List.map_map]
    rfl
  have perm := (all.filter fun m => m.stream == s.descriptor.name).map Message.timestamp
  rw [own, List.map_map] at perm
  exact perm

theorem length_timesOf_lt (regular : t.Regular) (id : StreamId) :
    (t.timesOf id).length < 2 ^ 64 := by
  have few := regular.ordered.length_records_le
  have limit : maxLimit = 9223372036854775807 := by decide
  have part := List.length_filter_le (fun r => r.stream == id) t.records
  rw [timesOf, List.length_map]
  omega

/-- Every statistics of tables are those of a stream. -/
theorem exists_of_mem_statistics (regular : t.Regular) (h : st ∈ t.statistics) :
    ∃ s ∈ t.streams, st.descriptor = s.descriptor ∧ st.Tallies (t.timesOf s.id) := by
  rw [regular.ordered.numbered.statistics_eq] at h
  obtain ⟨s, hs, made⟩ := List.mem_filterMap.1 h
  exact ⟨s, hs, tallies_of_ofTimes? (regular.length_timesOf_lt s.id) made⟩

/-- The statistics of tables cover the times of what is read. -/
theorem covers (regular : t.Regular) (all : read.Perm (t.messages.map StoredMessage.message)) :
    Covers t.statistics (read.map Message.timestamp) := by
  have inRead : ∀ s ∈ t.streams, ∀ x ∈ t.timesOf s.id, x ∈ read.map Message.timestamp := by
    intro s hs x hx
    have own := (regular.times_perm all hs).mem_iff.2 hx
    exact List.map_subset _ (List.filter_subset_self _) own
  refine ⟨fun st hst => ?_, fun st hst => ?_, fun x hx => ?_⟩
  · obtain ⟨s, hs, -, tallies⟩ := regular.exists_of_mem_statistics hst
    exact inRead s hs _ (List.min?_eq_some_iff.1 tallies.least).1
  · obtain ⟨s, hs, -, tallies⟩ := regular.exists_of_mem_statistics hst
    exact inRead s hs _ (List.max?_eq_some_iff.1 tallies.greatest).1
  · obtain ⟨m, hm, rfl⟩ := List.mem_map.1 hx
    obtain ⟨stored, there, rfl⟩ := List.mem_map.1 (all.subset hm)
    obtain ⟨s, hs, named⟩ := regular.exists_stream there
    have own : stored.message.timestamp ∈ t.timesOf s.id := by
      refine (regular.times_perm all hs).subset (List.mem_map_of_mem ?_)
      exact List.mem_filter.2 ⟨hm, beq_iff_eq.2 named⟩
    cases made : ofTimes? s.descriptor (t.timesOf s.id) with
    | none =>
      cases times : t.timesOf s.id with
      | nil => simp [times] at own
      | cons first rest => rw [times] at made; cases made
    | some st =>
      have tallies := (tallies_of_ofTimes? (regular.length_timesOf_lt s.id) made).2
      refine ⟨st, ?_, (List.min?_eq_some_iff.1 tallies.least).2 _ own,
        (List.max?_eq_some_iff.1 tallies.greatest).2 _ own⟩
      rw [regular.ordered.numbered.statistics_eq]
      exact List.mem_filterMap.2 ⟨s, hs, made⟩

/-- The statistics of tables are of the streams with records, in the order of creation. -/
theorem descriptors_statistics (regular : t.Regular)
    (all : read.Perm (t.messages.map StoredMessage.message)) :
    t.statistics.map descriptor =
      t.streamList.filter fun d => !(messagesOf d.name read).isEmpty := by
  rw [regular.ordered.numbered.statistics_eq, List.map_filterMap, streamList, List.filter_map,
    ← List.filterMap_eq_map, List.filterMap_filter]
  refine List.filterMap_congr fun s hs => ?_
  have same := (regular.times_perm all hs).isEmpty_eq
  rw [map_descriptor_ofTimes?, ← same, List.isEmpty_map]
  rw [Function.comp_apply]
  generalize (messagesOf s.descriptor.name read).isEmpty = silent
  cases silent <;> rfl

/-- The statistics of tables count every record that is read. -/
theorem sum_counts (regular : t.Regular)
    (all : read.Perm (t.messages.map StoredMessage.message)) :
    ((t.statistics.map count).map UInt64.toNat).sum = read.length := by
  have each : ∀ s ∈ t.streams,
      ((ofTimes? s.descriptor (t.timesOf s.id)).map fun st => st.count.toNat).getD 0 =
        (read.filter fun m => m.stream == s.descriptor.name).length := by
    intro s hs
    rw [count_ofTimes? (regular.length_timesOf_lt s.id), ← (regular.times_perm all hs).length_eq,
      List.length_map]
    rfl
  have known : ∀ m ∈ read, m.stream ∈ t.streams.map fun s => s.descriptor.name := by
    intro m hm
    obtain ⟨stored, there, rfl⟩ := List.mem_map.1 (all.subset hm)
    obtain ⟨s, hs, named⟩ := regular.exists_stream there
    exact named ▸ List.mem_map_of_mem hs
  rw [← sum_length_filter regular.named known, List.map_map, List.map_map,
    regular.ordered.numbered.statistics_eq, sum_filterMap]
  exact congrArg List.sum (List.map_congr_left each)

end Tables.Regular

/-! ### Metadata of what is read -/

section

variable {sts : List StreamStatistics} {read : List Message} {files : List String} {octets : UInt64}

/-- The metadata of statistics that cover records in the order of time start with the first one and
last to the last one. -/
theorem StorageMetadata.span_ofStatistics (covers : Covers sts (read.map Message.timestamp))
    (sorted : read.Pairwise fun m m' => m.timestamp ≤ m'.timestamp) {first last : Message}
    (head : read.head? = some first) (final : read.getLast? = some last) :
    (ofStatistics files sts octets).startingTime = first.timestamp ∧
      (ofStatistics files sts octets).duration = timeBetween first.timestamp last.timestamp ∧
      first.timestamp ≤ last.timestamp := by
  have upwards := List.pairwise_map.2 sorted
  have low : (sts.map minTimestamp).min? = some first.timestamp := by
    rw [covers.min?_eq, min?_of_sorted upwards, List.head?_map, head]
    rfl
  have high : (sts.map maxTimestamp).max? = some last.timestamp := by
    rw [covers.max?_eq, max?_of_sorted upwards, List.getLast?_map, final]
    rfl
  refine ⟨?_, ?_, ?_⟩
  · simp only [ofStatistics, low, Option.getD_some]
  · simp only [ofStatistics, low, high]
  · rw [covers.min?_eq] at low
    refine (List.min?_eq_some_iff.1 low).2 _ (List.mem_map_of_mem ?_)
    exact List.mem_of_getLast? final

end

/-- The metadata of a store say of some records, in the order of reading, how many there are, when
the first one is and how long they last, and of which streams they are. -/
structure StorageMetadata.Describes (m : StorageMetadata) (store : Store) (read : List Message) :
    Prop where
  count : m.recordCount.toNat = read.length
  /-- Without records everything is zero. -/
  empty : read = [] → m.startingTime = 0 ∧ m.duration = 0 ∧ m.streams = []
  /-- The time between the first and the last record, cut to 63 bits. -/
  span : ∀ first last, read.head? = some first → read.getLast? = some last →
    m.startingTime = first.timestamp ∧ 0 ≤ m.duration.toInt ∧
      m.duration.toInt = min (last.timestamp.toInt - first.timestamp.toInt) (2 ^ 63 - 1)
  /-- Of the streams of the store, in the order of creation, those that a record is of. -/
  streams : ∃ descriptors, store.streams = .ok descriptors ∧ m.streams.map descriptor =
    descriptors.filter fun d => !(messagesOf d.name read).isEmpty
  /-- The statistics of a stream are those of its records among these, and of its chain. -/
  tallies : ∀ st ∈ m.streams,
    st.Tallies ((messagesOf st.descriptor.name read).map Message.timestamp) ∧
    ∃ anchors, store.anchors = .ok anchors ∧ ∃ a ∈ anchors, a.descriptor = st.descriptor ∧
      ∃ chain, store.chain a.id = .ok chain ∧ st.Tallies (chain.map Record.timestamp)

/-- The metadata of regular tables describe what is read of a store that offers them. -/
theorem Store.Offers.describes {store : Store} {t : Tables} {read : List Message}
    (offers : store.Offers t) (regular : t.Regular)
    (all : read.Perm (t.messages.map StoredMessage.message))
    (sorted : read.Pairwise fun m m' => m.timestamp ≤ m'.timestamp) (files : List String)
    (octets : UInt64) :
    (StorageMetadata.ofStatistics files t.statistics octets).Describes store read := by
  have covers := regular.covers all
  have total := regular.sum_counts all
  have few : read.length < 2 ^ 64 := by
    have stored := regular.ordered.length_messages_le
    have numbers := regular.ordered.length_records_le
    have limit : Tables.maxLimit = 9223372036854775807 := by decide
    rw [all.length_eq, List.length_map]
    omega
  refine
    { count := ?_
      empty := fun none => ?_
      span := fun first last head final => ?_
      streams := ⟨_, offers.streams, regular.descriptors_statistics all⟩
      tallies := fun st hst => ?_ }
  · exact (toNat_foldl_add (total ▸ few)).trans total
  · have silent : t.statistics = [] := covers.eq_nil_iff.2 (by rw [none]; rfl)
    rw [silent]
    exact ⟨rfl, rfl, rfl⟩
  · obtain ⟨start, lasts, order⟩ := StorageMetadata.span_ofStatistics covers sorted head final
    have duration := toInt_timeBetween order
    rw [Int64.le_iff_toInt_le] at order
    rw [start, lasts, duration]
    exact ⟨rfl, by omega, rfl⟩
  · obtain ⟨s, hs, named, tallies⟩ := regular.exists_of_mem_statistics hst
    refine ⟨named ▸ tallies.perm (regular.times_perm all hs).symm, ?_⟩
    -- the stream is an anchor, since every octet string has its length
    obtain ⟨rows, rfl⟩ := regular.typed
    obtain ⟨a, ha, rfl⟩ := List.mem_map.1 hs
    refine ⟨rows.anchors, offers.anchors.trans rows.anchorList_tables, a, ha, named.symm,
      rows.chain a.id, (offers.chain a.id).trans (rows.chain_tables a.id), ?_⟩
    have times : (rows.chain a.id).map Record.timestamp = rows.tables.timesOf a.id := by
      rw [Rows.chain, Tables.timesOf, Rows.tables_records, List.filter_map, List.filter_map,
        List.map_map, List.map_map]
      rfl
    exact times ▸ tallies

/-- **Metadata agree with a reading.** Of a store that inserts led to, all records can be read, and
whatever a fresh cursor reads of it to the end, the metadata that an open session is answered
describe it. -/
theorem Session.metadata_describes (H : HashFunction) {s : Session} {store : Store}
    (reached : store.Reached) (isOpen : s.isOpen = true) :
    (∃ read, store.IsRead H read) ∧ ∀ read, store.IsRead H read →
      ∃ m, (s.metadata store).answer = .ok m ∧ m.Describes store read := by
  obtain ⟨t, regular, offers⟩ := reached.offers
  refine ⟨⟨_, offers.isRead regular.ordered⟩, fun read isRead => ?_⟩
  obtain ⟨o, opened⟩ := Option.isSome_iff_exists.1 isOpen
  obtain ⟨octets, size⟩ := offers.size
  obtain ⟨-, answer⟩ :=
    metadata_of_answers opened (offers.statistics regular.ordered.numbered) size
  have tables := offers.tables
  obtain ⟨all, sorted⟩ := isRead.sorted (tables.symm ▸ regular.ordered)
  rw [tables] at all
  exact ⟨_, answer, offers.describes regular all sorted o.files octets⟩

/-- Records at the least and at the greatest time, of one stream of two: they are further apart than
63 bits can say. -/
theorem Session.metadata_describes_extremes :
    let calls : List StoreCall :=
      [.insertStream ⟨"quiet", "Note", "json"⟩ (Nonce.fill 1) default,
        .insertStream ⟨"loud", "Note", "json"⟩ (Nonce.fill 2) default,
        .insertRecord ⟨2⟩ Int64.maxValue [1] default, .insertRecord ⟨2⟩ Int64.minValue [] default]
    let store := (Store.inMemory.createSchema.1.carryOutAll calls).1
    let s : Session := { registry := { nonce := default }
                         opened := some { store := 0, mode := .readOnly } }
    store.Reached ∧ ∃ read m, store.IsRead (fun _ => default) read ∧
      (s.metadata store).answer = .ok m ∧ m.Describes store read ∧
      read.length = 2 ∧ m.startingTime = Int64.minValue ∧ m.duration = Int64.maxValue ∧
      m.streams = [⟨⟨"loud", "Note", "json"⟩, 2, Int64.minValue, Int64.maxValue⟩] := by
  intro calls store s
  have reached : store.Reached := .calls .inMemory calls rfl
  obtain ⟨⟨read, isRead⟩, describes⟩ :=
    Session.metadata_describes (fun _ => default) (s := s) reached rfl
  obtain ⟨m, answer, described⟩ := describes read isRead
  have said : (s.metadata store).answer = .ok ⟨"chainlog", [], 2, Int64.minValue, Int64.maxValue,
      [⟨⟨"loud", "Note", "json"⟩, 2, Int64.minValue, Int64.maxValue⟩], 257⟩ := by
    decide +kernel
  obtain rfl := Except.ok.inj (said.symm.trans answer)
  exact ⟨reached, read, _, isRead, answer, described, described.count.symm, rfl, rfl, rfl⟩

end SealedLog

import Mathlib.Data.List.Induction
import Mathlib.Data.List.Nodup
import SealedLog.Proofs.Store.Changes

/-!
# The order of reading

The records of a store stand in one order, by time and then by number, and a page is the next few of
them behind a place. In memory and in a database the pages, and the statistics, are the same.

* `ReadPosition.before_trans`, `before_trichotomy`: places are in a strict order;
* `Tables.messages`, `Tables.reading`: the records under their streams' names, as they were
  inserted and as they are read;
* `Tables.page_eq`: a page is the next few records of the reading;
* `Query.groupBy_eq`: grouping by a key takes the rows of one key after the other;
* `Store.page_eq_ok`, `statistics_eq_ok`: an answer is what the tables say.
-/

namespace SealedLog

namespace ReadPosition

variable {a b c : ReadPosition}

theorem before_iff : a.before b = true ↔ a.timestamp.toInt < b.timestamp.toInt ∨
    a.timestamp.toInt = b.timestamp.toInt ∧ a.id.toInt < b.id.toInt := by
  simp [before, Int64.lt_iff_toInt_lt, Int64.toInt_inj]

theorem upTo_iff : a.upTo b = true ↔ ¬ b.before a = true := by simp [upTo]

theorem before_irrefl : ¬ a.before a = true := by
  rw [before_iff]
  omega

theorem before_trans (ab : a.before b = true) (bc : b.before c = true) : a.before c = true := by
  rw [before_iff] at *
  omega

theorem upTo_trans (ab : a.upTo b = true) (bc : b.upTo c = true) : a.upTo c = true := by
  rw [upTo_iff, before_iff] at *
  omega

theorem upTo_total (a b : ReadPosition) : (a.upTo b || b.upTo a) = true := by
  rw [Bool.or_eq_true, upTo_iff, upTo_iff, before_iff, before_iff]
  omega

/-- Of two places one is before the other, or they are the same. -/
theorem before_trichotomy (a b : ReadPosition) :
    a.before b = true ∨ a = b ∨ b.before a = true := by
  rcases a with ⟨t, i⟩
  rcases b with ⟨u, j⟩
  rw [before_iff, before_iff, mk.injEq, ← Int64.toInt_inj, ← Int64.toInt_inj]
  dsimp only
  omega

theorem before_of_upTo (h : a.upTo b = true) (ne : a ≠ b) : a.before b = true := by
  rcases before_trichotomy a b with before | same | after
  · exact before
  · exact absurd same ne
  · exact absurd after (upTo_iff.1 h)

theorem before_of_upTo_of_before (ab : a.upTo b = true) (bc : b.before c = true) :
    a.before c = true := by
  rw [upTo_iff] at ab
  rw [before_iff] at *
  omega

/-- The place behind some records that are read from a place on. -/
def past (after : ReadPosition) (read : List StoredMessage) : ReadPosition :=
  (read.getLast?.map StoredMessage.position).getD after

section

variable {after : ReadPosition} {read : List StoredMessage} {m : StoredMessage}

theorem past_concat (after : ReadPosition) (read : List StoredMessage) (m : StoredMessage) :
    after.past (read ++ [m]) = m.position := by
  rw [past, List.getLast?_concat]
  rfl

theorem past_append (after : ReadPosition) (read more : List StoredMessage) :
    after.past (read ++ more) = (after.past read).past more := by
  rcases List.eq_nil_or_concat more with rfl | ⟨before, last, rfl⟩
  · rw [List.append_nil]
    rfl
  · rw [List.concat_eq_append, ← List.append_assoc, past_concat, past_concat]

/-- The place behind the records is before another if all records, and the place that they are read
from, are. -/
theorem past_before (first : after.before c = true)
    (all : ∀ m ∈ read, m.position.before c = true) : (after.past read).before c = true := by
  rcases List.eq_nil_or_concat read with rfl | ⟨before, last, rfl⟩
  · exact first
  · rw [List.concat_eq_append] at all ⊢
    rw [past_concat]
    exact all last (by simp)

theorem past_before_iff (first : after.before c = true) :
    (after.past read).before c = true ↔
      ∀ last ∈ read.getLast?, last.position.before c = true := by
  unfold past
  cases read.getLast? with
  | none => exact iff_of_true first fun _ h => nomatch h
  | some last =>
    constructor
    · intro before last' same
      obtain rfl := Option.some.inj same
      exact before
    · intro all
      exact all last rfl

theorem before_of_past_before (behind : ∀ m ∈ read, after.before m.position = true)
    (h : (after.past read).before c = true) : after.before c = true := by
  rcases List.eq_nil_or_concat read with rfl | ⟨before, last, rfl⟩
  · exact h
  · rw [List.concat_eq_append] at behind h
    rw [past_concat] at h
    exact before_trans (behind last (by simp)) h

/-- No record is behind the place that is behind them all. -/
theorem upTo_past (ascending : read.Pairwise fun m m' => m.position.before m'.position = true)
    (mem : m ∈ read) : m.position.upTo (after.past read) = true := by
  rcases List.eq_nil_or_concat read with rfl | ⟨before, last, rfl⟩
  · cases mem
  · rw [List.concat_eq_append] at ascending mem ⊢
    rw [past_concat, upTo_iff]
    rcases List.mem_append.1 mem with earlier | same
    · intro back
      exact before_irrefl (before_trans back
        ((List.pairwise_append.1 ascending).2.2 m earlier last List.mem_cons_self))
    · rw [List.mem_singleton.1 same]
      exact before_irrefl

end

/-- Every record is behind the start, since numbers count from one. -/
theorem start_before (positive : 0 < a.id) : start.before a = true := by
  have low := a.timestamp.minValue_le_toInt
  rw [Int64.lt_iff_toInt_lt] at positive
  rw [before_iff]
  have zero : (0 : Int64).toInt = 0 := rfl
  have least : Int64.minValue.toInt = -9223372036854775808 := by decide
  simp only [start, zero, least] at *
  omega

end ReadPosition


/-! ### Joins -/

namespace Tables

variable {t : Tables} {s : StreamRow} {r : RecordRow}

/-- A record under the name of its stream. -/
def message (p : RecordRow × StreamRow) : StoredMessage :=
  ⟨p.1.id, p.2.descriptor.name, p.1.timestamp, p.1.payload⟩

/-- The records under the names of their streams, in the order of their numbers. -/
def messages (t : Tables) : List StoredMessage := t.joined.map message

/-- The records in the order of reading. -/
def reading (t : Tables) : List StoredMessage :=
  t.messages.mergeSort fun a b => a.position.upTo b.position

/-- The stream of this number. -/
def stream? (t : Tables) (id : StreamId) : Option StreamRow := t.streams.find? fun s => s.id == id

theorem Numbered.eq_of_id (h : t.Numbered) {s s' : StreamRow} (hs : s ∈ t.streams)
    (hs' : s' ∈ t.streams) (same : s.id = s'.id) : s = s' := by
  obtain ⟨k, hk⟩ := List.getElem?_of_mem hs
  obtain ⟨k', hk'⟩ := List.getElem?_of_mem hs'
  have atK := h k s hk
  rw [same, h k' s' hk'] at atK
  obtain rfl : k = k' := by omega
  rw [hk] at hk'
  exact Option.some.inj hk'

theorem Numbered.ascending (h : t.Numbered) :
    (t.streams.map fun s => s.id.number).Pairwise (· < ·) := by
  rw [List.pairwise_map, List.pairwise_iff_getElem]
  intro i j hi hj lt
  have atI := h i _ (List.getElem?_eq_getElem hi)
  have atJ := h j _ (List.getElem?_eq_getElem hj)
  rw [Int64.lt_iff_toInt_lt]
  omega

theorem Numbered.stream?_eq (h : t.Numbered) (hs : s ∈ t.streams) : t.stream? s.id = some s := by
  cases found : t.stream? s.id with
  | none => exact absurd (List.find?_eq_none.1 found s hs) (by simp)
  | some s' =>
    have same : s'.id = s.id := by simpa using List.find?_some found
    rw [h.eq_of_id (List.mem_of_find?_eq_some found) hs same]

/-- A stream is found by its number alone. -/
theorem Numbered.filter_eq (h : t.Numbered) (id : StreamId) :
    (t.streams.filter fun s => id == s.id) = (t.stream? id).toList := by
  have distinct : t.streams.Pairwise fun s s' => s.id ≠ s'.id := by
    refine (List.pairwise_map.1 h.ascending).imp fun lt same => ?_
    rw [same] at lt
    exact Int64.lt_irrefl lt
  unfold stream?
  clear h
  generalize t.streams = rows at distinct
  induction rows with
  | nil => rfl
  | cons s rows ih =>
    obtain ⟨others, rest⟩ := List.pairwise_cons.1 distinct
    by_cases same : s.id = id
    · have none : rows.filter (fun s' => id == s'.id) = [] := by
        rw [List.filter_eq_nil_iff]
        intro s' hs' found
        exact others s' hs' (same.trans (by simpa using found))
      simp [same, none]
    · simp [same, Ne.symm same, ih rest]

/-- Every record is joined with the one stream of its number, if there is one. -/
theorem Numbered.joined_eq (h : t.Numbered) :
    t.joined = t.records.filterMap fun r => (t.stream? r.stream).map fun s => (r, s) := by
  have each : ∀ r : RecordRow, (t.streams.filter fun s => r.stream == s.id).map (fun s => (r, s)) =
      ((t.stream? r.stream).map fun s => (r, s)).toList := by
    intro r
    rw [h.filter_eq]
    cases t.stream? r.stream <;> rfl
  unfold joined Query.join
  simp only [each]
  exact (List.filterMap_eq_flatMap_toList _ _).symm

theorem Numbered.messages_eq (h : t.Numbered) :
    t.messages = t.records.filterMap fun r => (t.stream? r.stream).map fun s => message (r, s) := by
  rw [messages, h.joined_eq, List.map_filterMap]
  congr 1
  funext r
  cases t.stream? r.stream <;> rfl

/-- A stream that is added has no records yet. -/
theorem Ordered.messages_withStream (ordered : t.Ordered) {row : StreamRow}
    (next : t.IsNext row.id) : (t.withStream row).messages = t.messages := by
  rw [(ordered.withStream next).numbered.messages_eq, ordered.numbered.messages_eq]
  refine List.filterMap_congr fun r hr => ?_
  obtain ⟨s, hs, owner⟩ := ordered.referential r hr
  have found := ordered.numbered.stream?_eq hs
  rw [owner] at found
  have still : (t.withStream row).stream? r.stream = some s := by
    rw [stream?, Tables.withStream, List.find?_append]
    rw [stream?] at found
    rw [found]
    rfl
  rw [still, found]

/-- A record that is added is the last message. -/
theorem Ordered.messages_withRecord (ordered : t.Ordered) {row : RecordRow}
    (behind : t.IsBehind row.id) {s : StreamRow} (hs : s ∈ t.streams) (owner : s.id = row.stream) :
    (t.withRecord row).messages = t.messages ++ [message (row, s)] := by
  have found : t.stream? row.stream = some s := by
    rw [← owner]
    exact ordered.numbered.stream?_eq hs
  rw [(ordered.withRecord behind ⟨s, hs, owner⟩).numbered.messages_eq,
    ordered.numbered.messages_eq, Tables.withRecord, List.filterMap_append]
  congr 1
  show (List.filterMap (fun r => (t.stream? r.stream).map fun s => message (r, s)) [row]) = _
  rw [List.filterMap_cons, found]
  rfl

/-! ### Reading -/

namespace Ordered

/-- Messages have the numbers of their records. -/
theorem exists_of_mem_messages (ordered : t.Ordered) {m : StoredMessage} (h : m ∈ t.messages) :
    ∃ r ∈ t.records, ∃ s, t.stream? r.stream = some s ∧ m = message (r, s) := by
  rw [ordered.numbered.messages_eq] at h
  obtain ⟨r, hr, made⟩ := List.mem_filterMap.1 h
  obtain ⟨s, found, rfl⟩ := Option.map_eq_some_iff.1 made
  exact ⟨r, hr, s, found, rfl⟩

theorem messages_ascending (ordered : t.Ordered) :
    t.messages.Pairwise fun m m' => m.id < m'.id := by
  rw [ordered.numbered.messages_eq]
  refine List.pairwise_filterMap.2 (ordered.ascending.imp fun lt m hm m' hm' => ?_)
  obtain ⟨s, -, rfl⟩ := Option.map_eq_some_iff.1 hm
  obtain ⟨s', -, rfl⟩ := Option.map_eq_some_iff.1 hm'
  exact lt

theorem positive_of_mem (ordered : t.Ordered) {m : StoredMessage} (h : m ∈ t.messages) :
    0 < m.id := by
  obtain ⟨r, hr, s, -, rfl⟩ := ordered.exists_of_mem_messages h
  exact ordered.positive r hr

/-- No two messages have one number. -/
theorem messages_distinct (ordered : t.Ordered) : (t.messages.map StoredMessage.id).Nodup := by
  refine List.pairwise_map.2 (ordered.messages_ascending.imp fun lt same => ?_)
  rw [same] at lt
  exact Int64.lt_irrefl lt

/-- No two messages are at one place. -/
theorem eq_of_position (ordered : t.Ordered) {m m' : StoredMessage} (h : m ∈ t.messages)
    (h' : m' ∈ t.messages) (same : m.position = m'.position) : m = m' :=
  List.inj_on_of_nodup_map ordered.messages_distinct h h' (congrArg ReadPosition.id same)

end Ordered

theorem mem_reading {m : StoredMessage} : m ∈ t.reading ↔ m ∈ t.messages := List.mem_mergeSort

theorem reading_perm (t : Tables) : t.reading.Perm t.messages := List.mergeSort_perm _ _

/-- Rows whose numbers go upwards from one on are no more than the greatest of the numbers. -/
theorem length_le_of_ascending {rows : List RecordRow}
    (ascending : rows.Pairwise fun r s => r.id < s.id) (positive : ∀ r ∈ rows, 0 < r.id)
    {bound : Int} (nonneg : 0 ≤ bound) (below : ∀ r ∈ rows, r.id.toInt ≤ bound) :
    (rows.length : Int) ≤ bound := by
  induction rows using List.reverseRecOn generalizing bound with
  | nil => exact nonneg
  | append_singleton rows last ih =>
    obtain ⟨front, -, behind⟩ := List.pairwise_append.1 ascending
    have one : 0 < last.id.toInt := Int64.lt_iff_toInt_lt.1 (positive last (by simp))
    have top : last.id.toInt ≤ bound := below last (by simp)
    have rest : (rows.length : Int) ≤ last.id.toInt - 1 := by
      refine ih front (fun r hr => positive r (by simp [hr])) (by omega) fun r hr => ?_
      have lt := Int64.lt_iff_toInt_lt.1 (behind r hr last List.mem_cons_self)
      omega
    rw [List.length_append, List.length_singleton]
    omega

theorem sorted_mergeSort (xs : List StoredMessage) :
    (xs.mergeSort fun a b => a.position.upTo b.position).Pairwise
      fun a b => a.position.upTo b.position = true := by
  refine List.pairwise_mergeSort (fun a b c => ?_) (fun a b => ?_) xs
  · exact ReadPosition.upTo_trans
  · exact ReadPosition.upTo_total a.position b.position

namespace Ordered

/-- The reading goes upwards. -/
theorem reading_ascending (ordered : t.Ordered) :
    t.reading.Pairwise fun m m' => m.position.before m'.position = true := by
  have distinct : t.reading.Pairwise fun m m' => m.id ≠ m'.id :=
    List.pairwise_map.1 ((t.reading_perm.map _).nodup_iff.2 ordered.messages_distinct)
  refine ((sorted_mergeSort t.messages).and distinct).imp fun h => ?_
  exact ReadPosition.before_of_upTo h.1 fun same => h.2 (congrArg ReadPosition.id same)

/-- Sorted lists of the same messages are the same. -/
theorem eq_of_perm (ordered : t.Ordered) {xs ys : List StoredMessage}
    (stored : ∀ m ∈ xs, m ∈ t.messages) (perm : xs.Perm ys)
    (sortedX : xs.Pairwise fun m m' => m.position.upTo m'.position = true)
    (sortedY : ys.Pairwise fun m m' => m.position.upTo m'.position = true) : xs = ys := by
  refine List.Perm.eq_of_pairwise (fun m m' hm hm' ab ba => ?_) sortedX sortedY perm
  refine ordered.eq_of_position (stored m hm) (stored m' (perm.symm.subset hm')) ?_
  rcases ReadPosition.before_trichotomy m.position m'.position with before | same | after
  · exact absurd before (ReadPosition.upTo_iff.1 ba)
  · exact same
  · exact absurd after (ReadPosition.upTo_iff.1 ab)

/-- To sort some messages is to take them from the reading. -/
theorem sorted_filter (ordered : t.Ordered) (p : StoredMessage → Bool) :
    ((t.messages.filter p).mergeSort fun a b => a.position.upTo b.position) =
      t.reading.filter p := by
  refine ordered.eq_of_perm (fun m hm => ?_) ?_ (sorted_mergeSort _)
    ((sorted_mergeSort t.messages).filter p)
  · exact (List.mem_filter.1 (List.mem_mergeSort.1 hm)).1
  · exact (List.mergeSort_perm _ _).trans (t.reading_perm.symm.filter p)

/-- The order of reading is that of insertion, stably sorted by time. -/
theorem reading_eq_stable (ordered : t.Ordered) :
    t.reading =
      t.messages.mergeSort fun a b => decide (a.message.timestamp ≤ b.message.timestamp) := by
  -- of messages at one time, the one with the smaller number was inserted before
  have each : ∀ p ∈ t.messages.zipIdx, ∀ q ∈ t.messages.zipIdx,
      List.zipIdxLE (fun a b => decide (a.message.timestamp ≤ b.message.timestamp)) p q =
        p.1.position.upTo q.1.position := by
    rintro ⟨a, i⟩ hi ⟨b, j⟩ hj
    rw [List.mem_zipIdx_iff_getElem?] at hi hj
    dsimp only at hi hj
    have numbers : i ≤ j ↔ a.id.toInt ≤ b.id.toInt := by
      obtain ⟨inI, rfl⟩ := List.getElem?_eq_some_iff.1 hi
      obtain ⟨inJ, rfl⟩ := List.getElem?_eq_some_iff.1 hj
      have ascending := List.pairwise_iff_getElem.1 ordered.messages_ascending
      rcases Nat.lt_trichotomy i j with lt | rfl | gt
      · have below := Int64.lt_iff_toInt_lt.1 (ascending i j inI inJ lt)
        omega
      · omega
      · have below := Int64.lt_iff_toInt_lt.1 (ascending j i inJ inI gt)
        omega
    rw [Bool.eq_iff_iff, ReadPosition.upTo_iff, ReadPosition.before_iff]
    simp only [List.zipIdxLE, decide_eq_true_eq, Int64.le_iff_toInt_le, StoredMessage.position,
      numbers]
    split_ifs <;> simp <;> omega
  have sorted := List.map_mergeSort (l := t.messages.zipIdx) (f := Prod.fst)
    (s := fun a b : StoredMessage => a.position.upTo b.position) each
  rw [List.mergeSort_zipIdx, List.zipIdx_map_fst] at sorted
  exact sorted.symm

/-- There are no more records than numbers for them. -/
theorem length_records_le (ordered : t.Ordered) : t.records.length ≤ maxLimit :=
  Int.ofNat_le.1 <| length_le_of_ascending ordered.ascending ordered.positive
    (Int.natCast_nonneg maxLimit) fun r _ => r.id.toInt_le

theorem length_messages_le (ordered : t.Ordered) : t.messages.length ≤ t.records.length := by
  rw [ordered.numbered.messages_eq]
  exact List.length_filterMap_le _ _

/-- **A page is the next few records of the reading.** -/
theorem page_eq (ordered : t.Ordered) (after : ReadPosition) (limit : Nat) :
    t.page after limit = (t.reading.filter fun m => after.before m.position).take limit := by
  have behind : (t.joined.filter fun p => after.before ⟨p.1.timestamp, p.1.id⟩).map message =
      t.messages.filter fun m => after.before m.position := by
    rw [messages, List.filter_map]
    rfl
  have few : (t.reading.filter fun m => after.before m.position).length ≤ maxLimit :=
    Nat.le_trans (List.length_filter_le _ _) (Nat.le_trans
      (t.reading_perm.length_eq ▸ ordered.length_messages_le) ordered.length_records_le)
  unfold page
  dsimp only
  rw [show (fun p : RecordRow × StreamRow => (⟨p.1.id, p.2.descriptor.name, p.1.timestamp,
    p.1.payload⟩ : StoredMessage)) = message from rfl, behind, ordered.sorted_filter,
    List.take_eq_take_iff]
  omega

theorem mem_of_mem_page (ordered : t.Ordered) {after : ReadPosition} {limit : Nat}
    {m : StoredMessage} (h : m ∈ t.page after limit) :
    m ∈ t.messages ∧ after.before m.position = true := by
  rw [ordered.page_eq] at h
  obtain ⟨mem, behind⟩ := List.mem_filter.1 (List.mem_of_mem_take h)
  exact ⟨mem_reading.1 mem, behind⟩

theorem page_ascending (ordered : t.Ordered) (after : ReadPosition) (limit : Nat) :
    (t.page after limit).Pairwise fun m m' => m.position.before m'.position = true := by
  rw [ordered.page_eq]
  exact (ordered.reading_ascending.filter _).take

/-- What is behind a place is on the page there or, if that is full, behind its last record. -/
theorem before_iff_page (ordered : t.Ordered) (after : ReadPosition) (limit : Nat)
    {m : StoredMessage} (stored : m ∈ t.messages) :
    after.before m.position = true ↔ m ∈ t.page after limit ∨
      limit ≤ (t.page after limit).length ∧
        (after.past (t.page after limit)).before m.position = true := by
  have inside : ∀ m', m' ∈ t.reading.filter (fun m => after.before m.position) ↔
      m' ∈ t.messages ∧ after.before m'.position = true := fun m' => by
    rw [List.mem_filter, mem_reading]
  have ascending := ordered.reading_ascending.filter fun m => after.before m.position
  rw [ordered.page_eq]
  generalize t.reading.filter (fun m => after.before m.position) = all at inside ascending ⊢
  have behind : ∀ m' ∈ all.take limit, after.before m'.position = true := fun m' h =>
    ((inside m').1 (List.mem_of_mem_take h)).2
  constructor
  · intro before
    have mem : m ∈ all.take limit ++ all.drop limit := by
      rw [List.take_append_drop]
      exact (inside m).2 ⟨stored, before⟩
    rcases List.mem_append.1 mem with here | later
    · exact .inl here
    · -- there is more than the page, so the page is full, and what is not on it is behind it
      have full : limit < all.length := by
        by_contra short
        rw [List.drop_eq_nil_of_le (by omega)] at later
        cases later
      rw [← List.take_append_drop limit all, List.pairwise_append] at ascending
      refine .inr ⟨?_, ReadPosition.past_before before fun last h => ascending.2.2 last h m later⟩
      rw [List.length_take]
      omega
  · rintro (here | ⟨-, later⟩)
    · exact behind m here
    · exact ReadPosition.before_of_past_before behind later

/-- Behind a page the reading goes on with what is not on the page. -/
theorem reading_past_page (ordered : t.Ordered) (after : ReadPosition) (limit : Nat) :
    (t.reading.filter fun m => (after.past (t.page after limit)).before m.position) =
      (t.reading.filter fun m => after.before m.position).drop limit := by
  have ascending := ordered.reading_ascending.filter fun m => after.before m.position
  have inside : ∀ m ∈ t.page after limit, after.before m.position = true := fun m h =>
    (ordered.mem_of_mem_page h).2
  -- what is behind the page is behind the place before it
  have twice : (t.reading.filter fun m => (after.past (t.page after limit)).before m.position) =
      (t.reading.filter fun m => after.before m.position).filter
        fun m => (after.past (t.page after limit)).before m.position := by
    rw [List.filter_filter]
    refine List.filter_congr fun m _ => ?_
    rw [Bool.eq_iff_iff, Bool.and_eq_true, iff_self_and]
    exact ReadPosition.before_of_past_before inside
  have behind : ∀ m ∈ t.reading.filter fun m => after.before m.position,
      after.before m.position = true := fun m h => (List.mem_filter.1 h).2
  rw [twice]
  rw [ordered.page_eq]
  generalize t.reading.filter (fun m => after.before m.position) = all at ascending behind ⊢
  rw [← List.take_append_drop limit all, List.pairwise_append] at ascending
  have none : (all.take limit).filter
      (fun m => (after.past (all.take limit)).before m.position) = [] := by
    refine List.filter_eq_nil_iff.2 fun m h => ?_
    exact ReadPosition.upTo_iff.1 (ReadPosition.upTo_past ascending.1 h)
  have every : (all.drop limit).filter
      (fun m => (after.past (all.take limit)).before m.position) = all.drop limit := by
    refine List.filter_eq_self.2 fun m h => ?_
    exact ReadPosition.past_before (behind m (List.mem_of_mem_drop h))
      fun last h' => ascending.2.2 last h' m h
  have split : all.filter (fun m => (after.past (all.take limit)).before m.position) =
      (all.take limit ++ all.drop limit).filter
        fun m => (after.past (all.take limit)).before m.position := by
    rw [List.take_append_drop]
  rw [split, List.filter_append, none, every, List.nil_append]

end Ordered

end Tables

/-! ### Groups -/

namespace Query

variable {α : Type} {key : α → Int64} {keys : List Int64}

/-- The rows of one key after the other; keys without rows make no group. -/
def groups (key : α → Int64) (keys : List Int64) (rows : List α) : List (Int64 × List α) :=
  keys.filterMap fun k =>
    let group := rows.filter fun row => key row == k
    if group.isEmpty then none else some (k, group)

theorem groups_cons (key : α → Int64) (k : Int64) (keys : List Int64) (rows : List α) :
    groups key (k :: keys) rows =
      if (rows.filter fun row => key row == k).isEmpty then groups key keys rows
      else (k, rows.filter fun row => key row == k) :: groups key keys rows := by
  unfold groups
  rw [List.filterMap_cons]
  split_ifs with empty
  · simp [empty]
  · simp [empty]

/-- A row of a key below all of the keys makes a group of its own before theirs. -/
theorem intoGroup_groups_of_lt {k : Int64} {row : α} {rows : List α} (below : ∀ k' ∈ keys, k < k') :
    intoGroup k row (groups key keys rows) = (k, [row]) :: groups key keys rows := by
  induction keys with
  | nil => rfl
  | cons k' keys ih =>
    rw [groups_cons]
    split_ifs
    · exact ih fun k'' h => below k'' (List.mem_cons_of_mem _ h)
    · rw [intoGroup, if_pos (below k' List.mem_cons_self)]

theorem groups_concat_of_not_mem {row : α} {rows : List α} (other : key row ∉ keys) :
    groups key keys (rows ++ [row]) = groups key keys rows := by
  unfold groups
  refine List.filterMap_congr fun k hk => ?_
  have ne : (key row == k) = false := by
    rw [beq_eq_false_iff_ne]
    exact fun same => other (same ▸ hk)
  simp [ne]

theorem intoGroup_groups {row : α} {rows : List α} (ascending : keys.Pairwise (· < ·))
    (mem : key row ∈ keys) :
    intoGroup (key row) row (groups key keys rows) = groups key keys (rows ++ [row]) := by
  induction keys with
  | nil => cases mem
  | cons k keys ih =>
    obtain ⟨below, rest⟩ := List.pairwise_cons.1 ascending
    rw [groups_cons, groups_cons, List.filter_append, List.filter_cons, List.filter_nil]
    by_cases here : key row = k
    · -- the row comes behind those of its group, or begins it
      subst here
      have other : key row ∉ keys := fun h => Int64.lt_irrefl (below _ h)
      rw [groups_concat_of_not_mem other, if_pos (beq_self_eq_true _)]
      by_cases empty : (rows.filter fun r => key r == key row).isEmpty = true
      · rw [if_pos empty, intoGroup_groups_of_lt below, List.isEmpty_iff.1 empty]
        rfl
      · rw [if_neg empty, intoGroup, if_neg Int64.lt_irrefl, if_pos rfl]
        simp
    · -- the row passes the group of a smaller key
      have later : key row ∈ keys := (List.mem_cons.1 mem).resolve_left here
      have above : ¬ key row < k := Int64.lt_asymm (below _ later)
      have ne : (key row == k) = false := beq_eq_false_iff_ne.2 here
      rw [ne, if_neg Bool.false_ne_true, List.append_nil, ← ih rest later]
      split_ifs
      · rfl
      · rw [intoGroup, if_neg above, if_neg here]

/-- **Grouping by a key takes the rows of one key after the other.** -/
theorem groupBy_eq {rows : List α} (ascending : keys.Pairwise (· < ·))
    (mem : ∀ row ∈ rows, key row ∈ keys) : groupBy key rows = groups key keys rows := by
  induction rows using List.reverseRecOn with
  | nil => simp [groupBy, groups]
  | append_singleton rows row ih =>
    have before := ih fun r hr => mem r (List.mem_append_left _ hr)
    unfold groupBy at before ⊢
    rw [List.foldl_append, before]
    exact intoGroup_groups ascending (mem row (by simp))

end Query

namespace Tables

variable {t : Tables}

/-- The times of the records of a stream. -/
def timesOf (t : Tables) (id : StreamId) : List Int64 :=
  (t.records.filter fun r => r.stream == id).map RecordRow.timestamp

/-- The joined rows of one stream are its records. -/
theorem Numbered.joined_filter (h : t.Numbered) {s : StreamRow} (hs : s ∈ t.streams) :
    (t.joined.filter fun p => p.2.id.number == s.id.number) =
      (t.records.filter fun r => r.stream == s.id).map fun r => (r, s) := by
  rw [h.joined_eq, List.filter_filterMap, ← List.filterMap_eq_map, List.filterMap_filter]
  congr 1
  funext r
  by_cases same : r.stream = s.id
  · simp [same, h.stream?_eq hs]
  · rw [if_neg (by simpa using same)]
    cases found : t.stream? r.stream with
    | none => rfl
    | some s' =>
      have owner : s'.id = r.stream := by simpa using List.find?_some found
      have ne : ¬ s'.id.number = s.id.number := fun h => same <| by
        rw [← owner]
        exact congrArg StreamId.mk h
      simp [ne]

/-- The statistics of streams are taken over the times of their records, stream by stream. -/
theorem Numbered.statistics_eq (h : t.Numbered) :
    t.statistics =
      t.streams.filterMap fun s => StreamStatistics.ofTimes? s.descriptor (t.timesOf s.id) := by
  have mem : ∀ p ∈ t.joined, p.2.id.number ∈ t.streams.map fun s => s.id.number := by
    intro p hp
    rw [h.joined_eq] at hp
    obtain ⟨r, -, made⟩ := List.mem_filterMap.1 hp
    obtain ⟨s, found, rfl⟩ := Option.map_eq_some_iff.1 made
    exact List.mem_map_of_mem (List.mem_of_find?_eq_some found)
  unfold statistics
  rw [Query.groupBy_eq h.ascending mem, Query.groups, List.filterMap_filterMap, List.filterMap_map]
  refine List.filterMap_congr fun s hs => ?_
  rw [Function.comp_apply, h.joined_filter hs, timesOf]
  cases t.records.filter fun r => r.stream == s.id with
  | nil => rfl
  | cons r rs =>
    dsimp only
    rw [List.map_cons, List.isEmpty_cons, if_neg Bool.false_ne_true, Option.bind_some,
      groupStatistics?, List.head?_cons, Option.bind_some, List.map_cons, List.map_map]
    rfl

end Tables

namespace MemoryStore

variable {m : MemoryStore}

theorem stream?_rows (m : MemoryStore) (id : StreamId) :
    m.rows.tables.stream? id = (m.anchors.find? fun a => a.id == id).map StreamAnchor.row := by
  rw [Tables.stream?, Rows.tables_streams, List.find?_map]
  rfl

theorem messages_rows (numbered : m.rows.tables.Numbered) :
    m.rows.tables.messages = m.records.filterMap m.message? := by
  rw [numbered.messages_eq, Rows.tables_records, List.filterMap_map]
  congr 1
  funext r
  rw [Function.comp_apply, stream?_rows, message?, streamName?, Option.map_map, Option.map_map]
  rfl

/-- Of the same rows, memory gives the same pages as a database. -/
theorem page_eq (ordered : m.rows.tables.Ordered) (after : ReadPosition) (limit : Nat) :
    m.page after limit = m.requireSchema.map fun _ => m.rows.tables.page after limit := by
  have behind : (m.records.filter fun r => after.before ⟨r.2.timestamp, r.1⟩).filterMap m.message? =
      m.rows.tables.messages.filter fun m => after.before m.position := by
    rw [messages_rows ordered.numbered, List.filterMap_filter, List.filter_filterMap]
    congr 1
    funext r
    unfold message?
    cases m.streamName? r.2.stream with
    | none => simp
    | some name => rfl
  rw [ordered.page_eq]
  unfold page
  dsimp only
  rw [behind, ordered.sorted_filter]
  cases m.requireSchema <;> rfl

/-- Of the same rows, memory gives the same statistics as a database. -/
theorem statistics_eq (numbered : m.rows.tables.Numbered) :
    m.statistics = m.requireSchema.map fun _ => m.rows.tables.statistics := by
  have times : ∀ id, m.rows.tables.timesOf id = m.timesOf id := by
    intro id
    rw [Tables.timesOf, timesOf, Rows.tables_records, List.filter_map, List.map_map]
    rfl
  rw [numbered.statistics_eq, Rows.tables_streams, List.filterMap_map]
  unfold statistics
  simp only [Function.comp_def, times]
  cases m.requireSchema <;> rfl

theorem streamList_eq (m : MemoryStore) :
    m.streamList = m.requireSchema.map fun _ => m.rows.tables.streamList := by
  have same : m.rows.tables.streamList = m.anchors.map StreamAnchor.descriptor := by
    rw [Tables.streamList, Rows.tables_streams, List.map_map]
    rfl
  rw [same]
  unfold streamList
  cases m.requireSchema <;> rfl

end MemoryStore

namespace Store

variable {s : Store}

/-- What a store answers, its tables say, if this is so in memory. -/
theorem eq_of_answer {α : Type} {method : StoreMethod} {f : Tables → α}
    {inMemory : MemoryStore → Except StoreError α} {a : α}
    (alike : ∀ m, s.engine = .memory m →
      inMemory m = m.requireSchema.map fun _ => f m.rows.tables)
    (h : s.guarded method (match s.engine with
      | .memory m => inMemory m
      | .connection c => c.query.map f) = .ok a) : a = f s.tables := by
  replace h := of_guarded_eq_ok h
  cases he : s.engine with
  | memory m =>
    rw [tables_memory he]
    simp only [he, alike m he] at h
    obtain ⟨_, -, same⟩ := Except.map_eq_ok_iff.1 h
    exact same.symm
  | connection c =>
    rw [tables_connection he]
    simp only [he] at h
    obtain ⟨t, ht, same⟩ := Except.map_eq_ok_iff.1 h
    rw [Connection.tables_of_query ht]
    exact same.symm

theorem page_eq_ok (ordered : s.tables.Ordered) {after : ReadPosition} {limit : Nat}
    {page : List StoredMessage} (h : s.page after limit = .ok page) :
    page = s.tables.page after limit :=
  eq_of_answer (fun _ he => MemoryStore.page_eq (tables_memory he ▸ ordered) after limit) h

theorem statistics_eq_ok (numbered : s.tables.Numbered) {statistics : List StreamStatistics}
    (h : s.statistics = .ok statistics) : statistics = s.tables.statistics :=
  eq_of_answer (fun _ he => MemoryStore.statistics_eq (tables_memory he ▸ numbered)) h

end Store

end SealedLog

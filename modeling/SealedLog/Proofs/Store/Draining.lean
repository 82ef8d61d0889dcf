import SealedLog.Proofs.Store.Reached
import SealedLog.Workspace.Stores

/-!
# Reading page by page

The pages of a store join: some records behind a place, and then more behind the last of them, are
the page of both counts. So reading page by page ends, and has then come past every record once.

* `StoreChange`, `Store.undergo`: the changes of a store, and the digests that are replaced in
  memory;
* `Store.Stocked`, `Store.Orderly`, `Stocked.orderly`: what changes and inserts lead to;
* `Tables.Ordered.page_add`, `Tables.Ordered.page_start`: pages join, up to the whole reading;
* `Store.Lists`: all records of a store in the order of reading;
* `Store.Drains`, `Store.Offers.drains`: reading page by page up to an empty one;
* `Store.pagination`: the pages of a store.
-/

namespace SealedLog

namespace Tables

variable {t : Tables}

/-- Rows that keep their numbers and their streams stay ordered. -/
theorem Ordered.after_setRecord (ordered : t.Ordered) (id : Int64) {change : RecordRow → RecordRow}
    (number : ∀ r, (change r).id = r.id) (stream : ∀ r, (change r).stream = r.stream) :
    (Database.setRecord t id change).1.Ordered := by
  have kept : ∀ r : RecordRow, (if r.id = id then change r else r).id = r.id ∧
      (if r.id = id then change r else r).stream = r.stream := by
    intro r
    split_ifs
    · exact ⟨number r, stream r⟩
    · exact ⟨rfl, rfl⟩
  refine ⟨ordered.numbered, fun r hr => ?_, ?_, fun r hr => ?_⟩
  · obtain ⟨r₀, stored, rfl⟩ := List.mem_map.1 hr
    rw [(kept r₀).1]
    exact ordered.positive r₀ stored
  · refine List.pairwise_map.2 (ordered.ascending.imp fun {r s} lt => ?_)
    rwa [(kept r).1, (kept s).1]
  · obtain ⟨r₀, stored, rfl⟩ := List.mem_map.1 hr
    rw [(kept r₀).2]
    exact ordered.referential r₀ stored

/-! ### Pages join -/

/-- **To read some records and then more is to read them all at once.** -/
theorem Ordered.page_add (ordered : t.Ordered) (after : ReadPosition) (first more : Nat) :
    t.page after (first + more) =
      t.page after first ++ t.page (after.past (t.page after first)) more := by
  rw [ordered.page_eq (after.past _), ordered.reading_past_page,
    ordered.page_eq after (first + more),
    List.take_add, ← ordered.page_eq]

theorem Ordered.reading_start (ordered : t.Ordered) :
    (t.reading.filter fun m => ReadPosition.start.before m.position) = t.reading := by
  refine List.filter_eq_self.2 fun m hm => ?_
  exact ReadPosition.start_before (ordered.positive_of_mem (mem_reading.1 hm))

theorem Ordered.length_reading_le (ordered : t.Ordered) : t.reading.length ≤ t.records.length :=
  t.reading_perm.length_eq ▸ ordered.length_messages_le

/-- A page from the start that has room for all records is the whole reading. -/
theorem Ordered.page_start (ordered : t.Ordered) {limit : Nat} (room : t.records.length ≤ limit) :
    t.page .start limit = t.reading := by
  rw [ordered.page_eq, ordered.reading_start]
  exact List.take_of_length_le (Nat.le_trans ordered.length_reading_le room)

/-- No record is without its stream. -/
theorem Ordered.joined_records (ordered : t.Ordered) : t.joined.map Prod.fst = t.records := by
  rw [ordered.numbered.joined_eq, List.map_filterMap]
  have each : ∀ r ∈ t.records,
      ((t.stream? r.stream).map fun s => (r, s)).map Prod.fst = some r := by
    intro r hr
    obtain ⟨s, hs, owner⟩ := ordered.referential r hr
    rw [← owner, ordered.numbered.stream?_eq hs]
    rfl
  rw [List.filterMap_congr each, List.filterMap_some]

theorem stream_of_mem_joined {p : RecordRow × StreamRow} (h : p ∈ t.joined) :
    p.2 ∈ t.streams ∧ p.2.id = p.1.stream := by
  obtain ⟨r, -, made⟩ := List.mem_flatMap.1 h
  obtain ⟨s, found, rfl⟩ := List.mem_map.1 made
  obtain ⟨stored, owner⟩ := List.mem_filter.1 found
  exact ⟨stored, (beq_iff_eq.1 owner).symm⟩

end Tables

/-! ### Stores and their changes -/

/-- A change of a store: a call, or another digest for a record, which only memory takes. -/
inductive StoreChange
  | call (call : StoreCall)
  | replaceDigest (id : Int64) (digest : Digest)

namespace Store

variable {s : Store} {t : Tables}

/-- The store after a change. -/
def undergo (s : Store) : StoreChange → Store
  | .call call => (s.carryOut call).1
  | .replaceDigest id digest => (s.replaceDigest id digest).1

/-- The store after one change after the other. -/
def undergoAll (s : Store) (changes : List StoreChange) : Store := changes.foldl undergo s

/-- A store that was new in memory and underwent any changes, or one that inserts led to, in memory
or in a database. -/
inductive Stocked (s : Store) : Prop
  | memory (changes : List StoreChange) (same : inMemory.undergoAll changes = s)
  | inserts (reached : s.Reached)

/-- A store that is new in memory and has no schema, or that serves tables in order. -/
inductive Orderly (s : Store) : Prop
  | new (same : s = inMemory)
  | serves {t : Tables} (serves : s.Serves t) (ordered : t.Ordered)

theorem Serves.replaceDigest (serves : s.Serves t) (ordered : t.Ordered) (id : Int64)
    (digest : Digest) : (s.replaceDigest id digest).1.Orderly := by
  cases serves with
  | @memory m engine working schema rows =>
    subst rows
    unfold Store.replaceDigest
    rw [engine]
    refine .serves (.memory rfl working schema rfl) ?_
    rw [MemoryStore.tables_replaceDigest]
    exact ordered.after_setRecord id (fun _ => rfl) fun _ => rfl
  | connection engine working ready =>
    unfold Store.replaceDigest
    rw [engine]
    exact .serves (.connection engine working ready) ordered

/-- Every change leaves a store orderly. -/
theorem Orderly.undergo (orderly : s.Orderly) (change : StoreChange) :
    (s.undergo change).Orderly := by
  cases orderly with
  | new same =>
    subst same
    cases change with
    | call call =>
      cases call with
      | createSchema => exact .serves .inMemory .empty
      | prepare => exact .new rfl
      | insertStream d n g => exact .new rfl
      | insertRecord stream timestamp payload g => exact .new rfl
      | look method => exact .new (by cases method <;> rfl)
    | replaceDigest id digest => exact .new rfl
  | serves serves ordered =>
    cases change with
    | call call =>
      obtain ⟨s', done, serves'⟩ := serves.carryOut ordered call
      rw [Store.undergo, done]
      exact .serves serves' (ordered.after_carryOut call)
    | replaceDigest id digest => exact serves.replaceDigest ordered id digest

theorem Orderly.undergoAll (orderly : s.Orderly) (changes : List StoreChange) :
    (s.undergoAll changes).Orderly := by
  induction changes generalizing s with
  | nil => exact orderly
  | cons change rest ih => exact ih (orderly.undergo change)

/-- What changes or inserts lead to is a new store in memory, or one that answers from tables in
order. -/
theorem Stocked.new_or_offers (stocked : s.Stocked) :
    s = inMemory ∨ ∃ t, t.Ordered ∧ s.Offers t := by
  cases stocked with
  | memory changes same =>
    have orderly : (inMemory.undergoAll changes).Orderly := (Orderly.new rfl).undergoAll changes
    rw [same] at orderly
    cases orderly with
    | new same => exact .inl same
    | serves serves ordered => exact .inr ⟨_, ordered, .serves serves⟩
  | inserts reached =>
    obtain ⟨t, regular, offers⟩ := reached.offers
    exact .inr ⟨t, regular.ordered, offers⟩

/-! ### Reading to the end -/

/-- Records in strictly ascending order are what they are sorted to. -/
theorem sorted_eq_of_ascending {xs ys : List StoredMessage} (perm : xs.Perm ys)
    (ascending : ys.Pairwise fun m m' => m.position.before m'.position = true) :
    (xs.mergeSort fun a b => a.position.upTo b.position) = ys := by
  have upwards : ys.Pairwise fun m m' => m.position.upTo m'.position = true :=
    ascending.imp fun before => ReadPosition.upTo_iff.2 fun after =>
      ReadPosition.before_irrefl (ReadPosition.before_trans before after)
  have distinct : (ys.map StoredMessage.position).Nodup := by
    refine List.pairwise_map.2 (ascending.imp fun before same => ?_)
    rw [same] at before
    exact ReadPosition.before_irrefl before
  have sortedPerm := (List.mergeSort_perm xs fun a b => a.position.upTo b.position).trans perm
  refine sortedPerm.eq_of_pairwise (fun a b ha hb ab ba => ?_) (Tables.sorted_mergeSort xs) upwards
  refine List.inj_on_of_nodup_map distinct (sortedPerm.subset ha) hb ?_
  rcases ReadPosition.before_trichotomy a.position b.position with before | same | after
  · exact absurd before (ReadPosition.upTo_iff.1 ba)
  · exact same
  · exact absurd after (ReadPosition.upTo_iff.1 ab)

/-- These are all records of a store: each of its rows once, under the name of its stream, in
strictly ascending order of their places. -/
structure Lists (s : Store) (all : List StoredMessage) : Prop where
  rows : ∃ joined : List (RecordRow × StreamRow), (joined.map Prod.fst).Perm s.tables.records ∧
    (∀ p ∈ joined, p.2 ∈ s.tables.streams ∧ p.2.id = p.1.stream) ∧ all = joined.map Tables.message
  ascending : all.Pairwise fun m m' => m.position.before m'.position = true

/-- Reading page by page from a place on meets these pages and then an empty one. -/
inductive Drains (s : Store) (limit : Nat) : ReadPosition → List (List StoredMessage) → Prop
  | done {after : ReadPosition} (empty : s.page after limit = .ok []) : Drains s limit after []
  | next {after : ReadPosition} {page : List StoredMessage} {last : StoredMessage}
      {pages : List (List StoredMessage)} (read : s.page after limit = .ok page)
      (behind : page.getLast? = some last) (rest : Drains s limit last.position pages) :
    Drains s limit after (page :: pages)

namespace Offers

theorem lists (offers : s.Offers t) (ordered : t.Ordered) : s.Lists t.reading where
  rows := by
    rw [offers.tables]
    have perm := List.mergeSort_perm t.joined fun p q =>
      (Tables.message p).position.upTo (Tables.message q).position
    refine ⟨_, ?_, fun p hp => Tables.stream_of_mem_joined (perm.subset hp), ?_⟩
    · rw [← ordered.joined_records]
      exact perm.map Prod.fst
    · exact (List.map_mergeSort (f := Tables.message)
        (s := fun a b => a.position.upTo b.position) fun _ _ _ _ => rfl).symm
  ascending := ordered.reading_ascending

/-- **Reading page by page ends**, with all that was behind the place. -/
theorem drains (offers : s.Offers t) (ordered : t.Ordered) {limit : Nat} (positive : 0 < limit)
    (n : Nat) (after : ReadPosition)
    (enough : (t.reading.filter fun m => after.before m.position).length < n) :
    ∃ pages, s.Drains limit after pages ∧ s.pagesFrom limit n after = .ok pages ∧
      pages.flatten = t.reading.filter fun m => after.before m.position := by
  induction n generalizing after with
  | zero => omega
  | succ n ih =>
    have read := offers.page ordered after limit
    have split := ordered.page_eq after limit
    cases behind : (t.page after limit).getLast? with
    | none =>
      -- the page has room for a record, so that there is none
      rw [List.getLast?_eq_none_iff] at behind
      rw [behind] at read split
      have none : (t.reading.filter fun m => after.before m.position) = [] := by
        rcases List.take_eq_nil_iff.1 split.symm with zero | none
        · omega
        · exact none
      refine ⟨[], .done read, ?_, none.symm⟩
      rw [pagesFrom, read]
      rfl
    | some last =>
      have past : after.past (t.page after limit) = last.position := by
        rw [ReadPosition.past, behind]
        rfl
      have rest := ordered.reading_past_page after limit
      rw [past] at rest
      have some : (t.reading.filter fun m => after.before m.position) ≠ [] := by
        rintro none
        rw [none, List.take_nil] at split
        rw [split] at behind
        cases behind
      have fewer : (t.reading.filter fun m => last.position.before m.position).length < n := by
        have := List.length_pos_iff.2 some
        rw [rest, List.length_drop]
        omega
      obtain ⟨pages, drains, answer, all⟩ := ih last.position fewer
      refine ⟨t.page after limit :: pages, .next read behind drains, ?_, ?_⟩
      · rw [pagesFrom, read]
        simp only [bind, Except.bind, behind, answer]
        rfl
      · rw [List.flatten_cons, all, rest, split, List.take_append_drop]

end Offers

/-- **The pages of a store.** On whatever changes or inserts led to, to read some records behind any
place and then more behind the last of them is to read them all at once, and asking changes no
answer. A store in memory that is still new refuses every page. Of any other store, a page from the
start with room for all records has each of them once, in order, under the name of its stream; and
reading page by page ends and has come past the same records. -/
theorem pagination (stocked : s.Stocked) :
    (∀ after first more, s.page after (first + more) = (s.page after first).bind fun read =>
      (s.page (after.past read) more).map fun behind => read ++ behind) ∧
    (∀ after limit, (s.visit .page).page after limit = s.page after limit) ∧
    (s = inMemory ∧
        (∀ after limit, s.page after limit =
          .error (.invalidData "schema has not been created")) ∨
      ∃ all, s.Lists all ∧
        (∀ limit, s.tables.records.length ≤ limit → s.page .start limit = .ok all) ∧
        ∀ limit, 0 < limit → ∃ pages, s.Drains limit .start pages ∧ s.pages limit = .ok pages ∧
          pages.flatten = all) := by
  obtain rfl | ⟨t, ordered, offers⟩ := stocked.new_or_offers
  · exact ⟨fun _ _ _ => rfl, fun _ _ => rfl, .inl ⟨rfl, fun _ _ => rfl⟩⟩
  · have page := offers.page ordered
    refine ⟨fun after first more => ?_, fun after limit => ?_, .inr ⟨t.reading,
      offers.lists ordered, fun limit room => ?_, fun limit positive => ?_⟩⟩
    · rw [page, page, Except.bind, page, ordered.page_add]
      rfl
    · rw [page, (offers.visit .page).page ordered]
    · rw [offers.tables] at room
      rw [page, ordered.page_start room]
    · have all := ordered.reading_start
      have enough := ordered.length_reading_le
      obtain ⟨pages, drains, answer, same⟩ :=
        offers.drains ordered positive (s.recordCount + 1) .start <| by
          rw [all, offers.recordCount]
          omega
      exact ⟨pages, drains, answer, same.trans all⟩

/-- Records of two streams out of order, one at the least time and two at the same, with calls that
are refused and a digest that is replaced in between; read from the start, behind a place that is
none of theirs, and one by one. -/
theorem pagination_of_unordered :
    let changes : List StoreChange :=
      [.call (.insertStream ⟨"early", "Note", "json"⟩ (Nonce.fill 1) default), .call .createSchema,
        .call (.insertStream ⟨"a", "Note", "json"⟩ (Nonce.fill 1) default),
        .call (.insertStream ⟨"b", "Note", "json"⟩ (Nonce.fill 2) default),
        .call (.insertRecord ⟨2⟩ 5 [1] default),
        .call (.insertRecord ⟨1⟩ Int64.minValue [2] default), .replaceDigest 1 (Digest.fill 9),
        .call (.insertRecord ⟨9⟩ 0 [] default), .call (.insertRecord ⟨1⟩ 5 [3] default)]
    let s := inMemory.undergoAll changes
    let all : List StoredMessage :=
      [⟨2, "a", Int64.minValue, [2]⟩, ⟨1, "b", 5, [1]⟩, ⟨3, "a", 5, [3]⟩]
    s.Stocked ∧ s.Lists all ∧ s.page .start 3 = .ok all ∧
    (s.page ⟨5, 0⟩ (1 + 1) = (s.page ⟨5, 0⟩ 1).bind fun read =>
      (s.page (ReadPosition.past ⟨5, 0⟩ read) 1).map fun behind => read ++ behind) ∧
    ∃ pages, s.Drains 1 .start pages ∧ pages.flatten = all := by
  intro changes s all
  have stocked : s.Stocked := .memory changes rfl
  have said : s.page .start 3 = .ok all := by
    have sorted : ([⟨1, "b", 5, [1]⟩, ⟨2, "a", Int64.minValue, [2]⟩, ⟨3, "a", 5, [3]⟩] :
        List StoredMessage).mergeSort (fun a b => a.position.upTo b.position) = all :=
      sorted_eq_of_ascending (by decide) (by decide)
    exact congrArg (fun messages => Except.ok (messages.take 3)) sorted
  obtain ⟨join, -, ⟨-, refused⟩ | ⟨all', lists, whole, drains⟩⟩ := pagination stocked
  · rw [refused] at said
    cases said
  · obtain rfl := Except.ok.inj (said.symm.trans (whole 3 (by decide)))
    obtain ⟨pages, ends, -, met⟩ := drains 1 (by decide)
    exact ⟨stocked, lists, said, join ⟨5, 0⟩ 1 1, pages, ends, met⟩

end Store

end SealedLog

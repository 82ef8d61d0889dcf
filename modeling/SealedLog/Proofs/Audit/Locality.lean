import SealedLog.Proofs.Audit.Edits
import SealedLog.Proofs.Store.Reached
import SealedLog.Workspace.Stores

/-!
# A single edit shows where it was made

When one stored value of a store gets another value, the audit of the store differs at the spot of
this value and at those of the values that are computed from it, and nowhere else, whatever else is
wrong with the store. If nothing was wrong, it is found.

* `Tables.Keyed`: rows have their numbers and names for themselves, as the schema demands; inserts
  and edits keep it so;
* `Store.EditsRecord`, `Store.EditsStream`: one field of a row gets another value;
* `EditsRecord.answers`, `EditsStream.answers`: what the store then answers;
* `AuditReport.AfterContent`, `AfterDigest`, `AfterNonce`, `AfterStreamDigest`: how its report may
  then differ, and when the edit is found;
* `Store.single_edit`: every such edit is reported so.
-/

namespace SealedLog

variable {H : HashFunction}

/-! ### One member of a list -/

section

variable {α β ε : Type} [DecidableEq β] {key : α → β} {xs : List α} {k : Nat} {x : α}

/-- To change what has one key is to change one place. -/
theorem map_ite_eq_set (distinct : (xs.map key).Nodup) (there : xs[k]? = some x) (g : α → α) :
    (xs.map fun y => if key y = key x then g y else y) = xs.set k (g x) := by
  obtain ⟨inside, rfl⟩ := List.getElem?_eq_some_iff.1 there
  refine List.ext_getElem (by simp) fun i here _ => ?_
  rw [List.getElem_map, List.getElem_set]
  have inside' : i < xs.length := by simpa using here
  by_cases same : k = i
  · subst same
    rw [if_pos rfl, if_pos rfl]
  · rw [if_neg same, if_neg]
    intro equal
    rw [← List.getElem_map key (h := by simpa using inside'),
      ← List.getElem_map key (h := by simpa using inside)] at equal
    exact same ((List.Nodup.getElem_inj_iff distinct).1 equal).symm

theorem map_ite_eq_self {c : β} (absent : ∀ y ∈ xs, key y ≠ c) (g : α → α) :
    (xs.map fun y => if key y = c then g y else y) = xs := by
  refine (List.map_congr_left fun y hy => ?_).trans (List.map_id xs)
  rw [if_neg (absent y hy)]
  rfl

/-- What is made of a list of which one member was changed. -/
theorem mapM_set_eq_ok {γ : Type} {f : α → Except ε γ} {ys ys' : List γ} (inside : k < xs.length)
    (h : xs.mapM f = .ok ys) (h' : (xs.set k x).mapM f = .ok ys') :
    ∃ y, f x = .ok y ∧ ys' = ys.set k y := by
  induction xs generalizing k ys ys' with
  | nil => cases inside
  | cons x₀ xs ih =>
    rw [List.mapM_cons, Except.bind_eq_ok_iff] at h
    obtain ⟨y₀, hy₀, h⟩ := h
    obtain ⟨rest, hrest, h⟩ := Except.bind_eq_ok_iff.1 h
    cases h
    cases k with
    | zero =>
      rw [List.set_cons_zero, List.mapM_cons, Except.bind_eq_ok_iff] at h'
      obtain ⟨y, hy, h'⟩ := h'
      obtain ⟨rest', hrest', h'⟩ := Except.bind_eq_ok_iff.1 h'
      cases h'
      cases hrest.symm.trans hrest'
      exact ⟨y, hy, rfl⟩
    | succ k =>
      rw [List.set_cons_succ, List.mapM_cons, Except.bind_eq_ok_iff] at h'
      obtain ⟨y₀', hy₀', h'⟩ := h'
      obtain ⟨rest', hrest', h'⟩ := Except.bind_eq_ok_iff.1 h'
      cases h'
      cases hy₀.symm.trans hy₀'
      obtain ⟨y, hy, rfl⟩ := ih (Nat.lt_of_succ_lt_succ inside) hrest hrest'
      exact ⟨y, hy, rfl⟩

/-- What is made of one member stands at its place. -/
theorem getElem?_of_mapM {γ : Type} {f : α → Except ε γ} {ys : List γ} (h : xs.mapM f = .ok ys)
    (there : xs[k]? = some x) : ∃ y, ys[k]? = some y ∧ f x = .ok y := by
  have each := Except.mapM_eq_ok_iff.1 h
  clear h
  induction each generalizing k with
  | nil => cases there
  | cons first _ ih =>
    cases k with
    | zero =>
      obtain rfl := Option.some.inj there
      exact ⟨_, rfl, first⟩
    | succ k => exact ih there

end

/-! ### Rows of which one was changed -/

/-- The part of a row that the digest of the record covers. -/
def RecordRow.link (r : RecordRow) : Link := ⟨r.timestamp, r.stream, r.payload⟩

theorem Tables.link_of_record {row : RecordRow} {r : Record} (h : Tables.record row = .ok r) :
    r.link = row.link ∧ r.digest.bytes = row.digest := by
  rw [← Tables.record_eq_ok h]
  exact ⟨rfl, rfl⟩

open Database

namespace Tables

variable {t : Tables} {s : StreamRow} {r : RecordRow} {j k : Nat} {id : StreamId}

/-- Rows have their numbers for themselves, and streams their names. -/
structure Keyed (t : Tables) : Prop where
  streams : (t.streams.map StreamRow.id).Nodup
  names : (t.streams.map fun s => s.descriptor.name).Nodup
  records : (t.records.map RecordRow.id).Nodup

/-- Streams that are numbered by their place have numbers of their own. -/
theorem Numbered.nodup (numbered : t.Numbered) : (t.streams.map StreamRow.id).Nodup := by
  have places : (t.streams.map StreamRow.id).map (fun id => id.number.toInt) =
      (List.range t.streams.length).map fun k : Nat => (k : Int) + 1 := by
    refine List.ext_getElem (by simp) fun k here _ => ?_
    have inside : k < t.streams.length := by simpa using here
    simpa using numbered k t.streams[k] (List.getElem?_eq_getElem inside)
  refine .of_map (fun id => id.number.toInt) ?_
  rw [places]
  exact List.nodup_range.map fun i j same => by omega

/-- Inserts leave rows their numbers and names. -/
theorem Regular.keyed (regular : t.Regular) : t.Keyed where
  streams := regular.ordered.numbered.nodup
  names := regular.named
  records := List.pairwise_map.2
    (regular.ordered.ascending.imp fun {_ _} below => Int64.ne_of_lt below)

theorem map_ite_key {α β γ : Type} [DecidableEq γ] (key : α → β) {number : α → γ} {change : α → α}
    (kept : ∀ x, key (change x) = key x) (id : γ) (xs : List α) :
    (xs.map fun x => if number x = id then change x else x).map key = xs.map key := by
  rw [List.map_map]
  refine List.map_congr_left fun x _ => ?_
  rw [Function.comp_apply]
  split_ifs
  · exact kept x
  · rfl

theorem Keyed.after_setRecord (keyed : t.Keyed) (number : Int64) {change : RecordRow → RecordRow}
    (kept : ∀ x, (change x).id = x.id) : (setRecord t number change).1.Keyed where
  streams := keyed.streams
  names := keyed.names
  records := (map_ite_key _ kept number t.records).symm ▸ keyed.records

theorem Keyed.after_setStream (keyed : t.Keyed) (number : Int64) {change : StreamRow → StreamRow}
    (kept : ∀ x, (change x).id = x.id)
    (names : ((setStream t number change).1.streams.map fun s => s.descriptor.name).Nodup) :
    (setStream t number change).1.Keyed where
  streams := (map_ite_key _ kept number t.streams).symm ▸ keyed.streams
  names := names
  records := keyed.records

/-- A stream may be given a name that no other one has. -/
theorem Keyed.names_renamed (keyed : t.Keyed) {number : Int64} {value : String}
    {change : StreamRow → StreamRow} (changed : ∀ s, (change s).descriptor.name = value)
    (free : ∀ s ∈ t.streams, s.id.number = number → ∀ s' ∈ t.streams, s'.id.number ≠ number →
      s'.descriptor.name ≠ value) :
    ((setStream t number change).1.streams.map fun s => s.descriptor.name).Nodup := by
  rw [setStream, List.map_map]
  refine .map_on (fun x hx y hy same => ?_) keyed.streams.of_map
  rw [Function.comp_apply, Function.comp_apply] at same
  split_ifs at same with here there there
  · have number := congrArg StreamId.mk (here.trans there.symm)
    exact List.inj_on_of_nodup_map keyed.streams hx hy number
  · exact absurd (same.symm.trans (changed x)) (free x hx here y hy there)
  · exact absurd (same.trans (changed y)) (free y hy there x hx here)
  · exact List.inj_on_of_nodup_map keyed.names hx hy same

/-- **An edit leaves rows their numbers and names**: a name that another stream has is refused. -/
theorem Keyed.after_applySetting (keyed : t.Keyed) {setting : Setting} {number : Int64}
    {t' : Tables} (h : (applySetting t number setting).map Prod.fst = some t') : t'.Keyed := by
  have same : ∀ change : StreamRow → StreamRow,
      (∀ s, (change s).descriptor.name = s.descriptor.name) →
      ((setStream t number change).1.streams.map fun s => s.descriptor.name).Nodup := by
    intro change named
    exact (map_ite_key (fun s : StreamRow => s.descriptor.name) named number t.streams).symm ▸
      keyed.names
  cases setting with
  | recordPayload | recordDigest | recordTimestamp =>
    obtain rfl := Option.some.inj h
    exact keyed.after_setRecord number fun _ => rfl
  | recordStream value =>
    rw [applySetting] at h
    split_ifs at h
    · cases h
    · obtain rfl := Option.some.inj h
      exact keyed.after_setRecord number fun _ => rfl
  | streamNonce | streamDigest | streamType | streamFormat =>
    obtain rfl := Option.some.inj h
    exact keyed.after_setStream number (fun _ => rfl) (same _ fun _ => rfl)
  | streamName value =>
    rw [applySetting] at h
    split_ifs at h with refused
    · cases h
    · obtain rfl := Option.some.inj h
      refine keyed.after_setStream number (fun _ => rfl) (keyed.names_renamed (fun _ => rfl) ?_)
      intro s hs here s' hs' other named
      refine refused (Bool.and_eq_true_iff.2 ⟨List.any_eq_true.2 ⟨s, hs, ?_⟩,
        List.any_eq_true.2 ⟨s', hs', ?_⟩⟩)
      · exact beq_iff_eq.2 here
      · exact Bool.and_eq_true_iff.2 ⟨bne_iff_ne.2 other, beq_iff_eq.2 named⟩

/-- A row that is changed stays with its stream. -/
theorem recordsOf_setRecord {number : Int64} {change : RecordRow → RecordRow}
    (stays : ∀ x, (change x).stream = x.stream) (id : StreamId) :
    (setRecord t number change).1.recordsOf id =
      (t.recordsOf id).map fun x => if x.id = number then change x else x := by
  rw [recordsOf, setRecord, List.filter_map, recordsOf]
  refine congrArg _ (List.filter_congr fun x _ => ?_)
  rw [Function.comp_apply]
  split_ifs
  · rw [stays]
  · rfl

theorem Keyed.nodup_recordsOf (keyed : t.Keyed) (id : StreamId) :
    ((t.recordsOf id).map RecordRow.id).Nodup :=
  keyed.records.sublist (List.filter_sublist.map _)

/-- A record that is changed is changed at its place in its stream. -/
theorem Keyed.recordsOf_setRecord_self (keyed : t.Keyed) {change : RecordRow → RecordRow}
    (stays : ∀ x, (change x).stream = x.stream) (there : (t.recordsOf id)[j]? = some r) :
    (setRecord t r.id change).1.recordsOf id = (t.recordsOf id).set j (change r) := by
  rw [recordsOf_setRecord stays]
  exact map_ite_eq_set (keyed.nodup_recordsOf id) there change

/-- Other streams keep their records. -/
theorem Keyed.recordsOf_setRecord_of_ne (keyed : t.Keyed) {change : RecordRow → RecordRow}
    (stays : ∀ x, (change x).stream = x.stream) (there : (t.recordsOf id)[j]? = some r)
    {id' : StreamId} (other : id' ≠ id) :
    (setRecord t r.id change).1.recordsOf id' = t.recordsOf id' := by
  rw [recordsOf_setRecord stays]
  refine map_ite_eq_self (fun x hx same => other ?_) change
  obtain ⟨hx, stream⟩ := List.mem_filter.1 hx
  obtain ⟨hr, stream'⟩ := List.mem_filter.1 (List.mem_of_getElem? there)
  obtain rfl := List.inj_on_of_nodup_map keyed.records hx hr same
  exact (beq_iff_eq.1 stream).symm.trans (beq_iff_eq.1 stream')

/-- A stream that is changed is changed at its place. -/
theorem Keyed.streams_setStream (keyed : t.Keyed) (change : StreamRow → StreamRow)
    (there : t.streams[k]? = some s) :
    (setStream t s.id.number change).1.streams = t.streams.set k (change s) := by
  have numbers : (t.streams.map fun s => s.id.number).Nodup := by
    have injective : Function.Injective StreamId.number := fun _ _ h => congrArg StreamId.mk h
    have same := keyed.streams.map injective
    rwa [List.map_map] at same
  exact map_ite_eq_set numbers there change

end Tables

/-! ### What a store answers of which one value was replaced -/

namespace Store

variable {A B : Store} {s : StreamRow} {r : RecordRow} {j k : Nat} {as : List StreamAnchor}
  {chain : StreamId → List Record}

/-- A store becomes another one, that can still be audited, when one field of the row with this
number gets another value. -/
structure Edited (A : Store) (id : Int64) (setting : Setting) (B : Store) : Prop where
  rows : (applySetting A.tables id setting).map Prod.fst = some B.tables
  answers : B.AnswersAudit

/-- The edit is one of record `j` of the stream `s`. -/
structure EditsRecord (A : Store) (s : StreamRow) (j : Nat) (r : RecordRow) (setting : Setting)
    (B : Store) : Prop where
  stream : s ∈ A.tables.streams
  record : (A.tables.recordsOf s.id)[j]? = some r
  edited : A.Edited r.id setting B

/-- The edit is one of stream `k`. -/
structure EditsStream (A : Store) (k : Nat) (s : StreamRow) (setting : Setting) (B : Store) :
    Prop where
  stream : A.tables.streams[k]? = some s
  edited : A.Edited s.id.number setting B

/-- To replace the digest of a record in memory is such an edit. -/
theorem edited_of_replaceDigest {m : MemoryStore} (held : A.engine = .memory m)
    (answers : A.AnswersAudit) (id : Int64) (digest : Digest) :
    A.Edited id (.recordDigest digest.bytes) (A.replaceDigest id digest).1 := by
  obtain ⟨engine, faults⟩ := A
  obtain rfl : engine = .memory m := held
  constructor
  · exact congrArg some (m.tables_replaceDigest id digest).symm
  · obtain ⟨as, anchors, each⟩ := answers
    refine ⟨as, anchors, fun a ha => ?_⟩
    obtain ⟨records, read⟩ := each a ha
    obtain ⟨fair, read⟩ := guarded_eq_ok_iff.1 read
    obtain ⟨⟨⟩, works, -⟩ := Except.bind_eq_ok_iff.1 read
    exact ⟨_, guarded_eq_ok_iff.2 ⟨fair, Except.bind_eq_ok_iff.2 ⟨(), works, rfl⟩⟩⟩

theorem Answers.recordsOf (answers : A.Answers as chain) {a : StreamAnchor} (ha : a ∈ as) :
    (A.tables.recordsOf a.id).mapM Tables.record = .ok (chain a.id) :=
  tables_chain (answers.chains a ha)

/-- **A store with another record answers another record at its place.** -/
theorem EditsRecord.answers {setting : Setting} (edits : A.EditsRecord s j r setting B)
    (change : RecordRow → RecordRow) (keyed : A.tables.Keyed)
    (stays : ∀ x, (change x).stream = x.stream)
    (changes : ∀ t id, (applySetting t id setting).map Prod.fst = some (setRecord t id change).1)
    (answers : A.Answers as chain) :
    ∃ a ∈ as, a.row = s ∧ ∃ r₀ r₁, (chain a.id)[j]? = some r₀ ∧ Tables.record r = .ok r₀ ∧
      Tables.record (change r) = .ok r₁ ∧ B.Answers as (Audit.withRecord chain a.id j r₁) := by
  obtain ⟨stream, there, rows, answersB⟩ := edits
  rw [changes] at rows
  have rows := Option.some.inj rows
  obtain ⟨as', answers'⟩ := answersB.exists_answers
  -- the streams are the same
  have streams : B.tables.streams = A.tables.streams := by rw [← rows]; rfl
  have same : A.tables.anchorList = B.tables.anchorList := by
    rw [Tables.anchorList, Tables.anchorList, streams]
  have listed := tables_anchorList answers.anchors
  rw [same, tables_anchorList answers'.anchors] at listed
  obtain rfl := Except.ok.inj listed
  rw [Tables.streams_of_anchorList (tables_anchorList answers.anchors)] at stream
  obtain ⟨a, ha, rfl⟩ := List.mem_map.1 stream
  have there : (A.tables.recordsOf a.id)[j]? = some r := there
  -- and so are the records but for one
  obtain ⟨inside, -⟩ := List.getElem?_eq_some_iff.1 there
  have before := answers.recordsOf ha
  have after := answers'.recordsOf ha
  rw [← rows, keyed.recordsOf_setRecord_self stays there] at after
  obtain ⟨r₁, made₁, set⟩ := mapM_set_eq_ok inside before after
  obtain ⟨r₀, at₀, made₀⟩ := getElem?_of_mapM before there
  refine ⟨a, ha, rfl, r₀, r₁, at₀, made₀, made₁, answers'.anchors, fun b hb => ?_⟩
  rw [answers'.chains b hb]
  by_cases here : b.id = a.id
  · rw [here, set, Audit.withRecord_self]
  · have kept := answers'.recordsOf hb
    rw [← rows, keyed.recordsOf_setRecord_of_ne stays there here, answers.recordsOf hb] at kept
    rw [Audit.withRecord_of_ne here, Except.ok.inj kept]

/-- **A store with another stream answers another stream at its place.** -/
theorem EditsStream.answers {setting : Setting} (edits : A.EditsStream k s setting B)
    (change : StreamRow → StreamRow) (keyed : A.tables.Keyed) (stays : (change s).id = s.id)
    (changes : ∀ t id, (applySetting t id setting).map Prod.fst = some (setStream t id change).1)
    (answers : A.Answers as chain) :
    ∃ front a a' back, as = front ++ a :: back ∧ front.length = k ∧ Tables.anchor s = .ok a ∧
      Tables.anchor (change s) = .ok a' ∧ B.Answers (front ++ a' :: back) chain := by
  obtain ⟨there, rows, answersB⟩ := edits
  rw [changes] at rows
  have rows := Option.some.inj rows
  obtain ⟨as', answers'⟩ := answersB.exists_answers
  obtain ⟨inside, -⟩ := List.getElem?_eq_some_iff.1 there
  have before : A.tables.streams.mapM Tables.anchor = .ok as := tables_anchorList answers.anchors
  have after : B.tables.streams.mapM Tables.anchor = .ok as' := tables_anchorList answers'.anchors
  rw [← rows, keyed.streams_setStream change there] at after
  obtain ⟨a', made', rfl⟩ := mapM_set_eq_ok inside before after
  obtain ⟨a, at₀, made⟩ := getElem?_of_mapM before there
  obtain ⟨inside', rfl⟩ := List.getElem?_eq_some_iff.1 at₀
  have ids : a'.id = as[k].id := by
    have here := congrArg StreamRow.id (Tables.anchor_eq_ok made)
    have here' := congrArg StreamRow.id (Tables.anchor_eq_ok made')
    exact here'.trans (stays.trans here.symm)
  refine ⟨as.take k, as[k], a', as.drop (k + 1), ?_, ?_, made, made', ?_⟩
  · rw [List.getElem_cons_drop, List.take_append_drop]
  · rw [List.length_take]
    omega
  · rw [List.set_eq_take_append_cons_drop, if_pos inside'] at answers'
    refine ⟨answers'.anchors, fun b hb => ?_⟩
    -- its records are those of a stream of before
    have known : ∃ c ∈ as, c.id = b.id := by
      rcases List.mem_append.1 hb with front | rest
      · exact ⟨b, List.mem_of_mem_take front, rfl⟩
      · rcases List.mem_cons.1 rest with rfl | back
        · exact ⟨as[k], List.getElem_mem _, ids.symm⟩
        · exact ⟨b, List.mem_of_mem_drop back, rfl⟩
    obtain ⟨c, hc, same⟩ := known
    have read := answers'.recordsOf hb
    have kept := answers.recordsOf hc
    rw [same] at kept
    have records : B.tables.recordsOf b.id = A.tables.recordsOf b.id := by rw [← rows]; rfl
    rw [records, kept] at read
    rw [answers'.chains b hb, Except.ok.inj read]

end Store

/-! ### What its audit reports -/

namespace AuditReport

open Audit

variable (H : HashFunction) (report : AuditReport) (t : Tables) (s : StreamRow) (j k : Nat)

/-- How a report may differ after another content of record `j` of the stream: at this record alone.
In a store that was clean the edit is found, unless two contents have one hash. -/
structure AfterContent (r r' : RecordRow) (report' : AuditReport) : Prop where
  changes : report.ChangesAt [recordSpot s.descriptor.name j] report'
  tips : report'.tips = report.tips
  found : report.isClean = true → r'.link ≠ r.link → r.payload.length < 2 ^ 64 →
    r'.payload.length < 2 ^ 64 →
      (report'.entry (recordSpot s.descriptor.name j)).isSome = true ∨
        ∃ previous, Collides H (hashedBy (recordPreimage previous r.link) ++
          hashedBy (recordPreimage previous r'.link))

/-- How a report may differ after another digest of record `j` of the stream: at this record and the
one behind it, and at the tip of the stream if there is none behind it. In a store that was clean
the edit is found. -/
structure AfterDigest (r : RecordRow) (value : Bytes) (report' : AuditReport) : Prop where
  changes : report.ChangesAt
    [recordSpot s.descriptor.name j, recordSpot s.descriptor.name (j + 1)] report'
  tips : j + 1 < (t.recordsOf s.id).length → report'.tips = report.tips
  others : ∀ name, name ≠ s.descriptor.name → report'.tip name = report.tip name
  found : report.isClean = true → value ≠ r.digest →
    (report'.entry (recordSpot s.descriptor.name j)).isSome = true

/-- How a report may differ after another nonce of stream `k`: at this stream alone. In a store that
was clean the edit is found, at the nonce unless the stream is the first one, and at the digest
unless two nonces have one hash. -/
structure AfterNonce (value : Bytes) (report' : AuditReport) : Prop where
  changes : report.ChangesAt [streamSpot s.descriptor.name, anchorSpot s.descriptor.name] report'
  tips : report'.tips = report.tips
  foundAnchor : report.isClean = true → value ≠ s.nonce → 0 < k →
    (report'.entry (anchorSpot s.descriptor.name)).isSome = true
  foundStream : report.isClean = true → value ≠ s.nonce →
    (report'.entry (streamSpot s.descriptor.name)).isSome = true ∨
      ∃ n n' : Nonce, n.bytes = s.nonce ∧ n'.bytes = value ∧
        Collides H (hashedBy (streamPreimage n s.descriptor) ++
          hashedBy (streamPreimage n' s.descriptor))

/-- How a report may differ after another digest of stream `k`: at this stream, at the nonce of the
next one and at the first record, and at the tip of the stream if it has no records. In a store that
was clean the edit is found. -/
structure AfterStreamDigest (value : Bytes) (report' : AuditReport) : Prop where
  changes : report.ChangesAt
    (streamSpot s.descriptor.name :: recordSpot s.descriptor.name 0 ::
      (t.streams[k + 1]?).toList.map fun next => anchorSpot next.descriptor.name) report'
  tips : t.recordsOf s.id ≠ [] → report'.tips = report.tips
  others : ∀ name, name ≠ s.descriptor.name → report'.tip name = report.tip name
  found : report.isClean = true → value ≠ s.digest →
    (report'.entry (streamSpot s.descriptor.name)).isSome = true

end AuditReport

namespace Store

open Audit

variable {A B : Store} {s : StreamRow} {r : RecordRow} {j k : Nat} {as : List StreamAnchor}
  {chain : StreamId → List Record}
variable {report : AuditReport} {setting : Setting}

/-- The streams that a store answers have the numbers and names of its rows. -/
theorem Answers.keyed (answers : A.Answers as chain) (keyed : A.tables.Keyed) :
    (as.map StreamAnchor.id).Nodup ∧ (as.map fun a => a.descriptor.name).Nodup := by
  have rows := Tables.streams_of_anchorList (tables_anchorList answers.anchors)
  have ids := keyed.streams
  have names := keyed.names
  rw [rows, List.map_map] at ids names
  exact ⟨ids, names⟩

/-- **Another content of a record** shows at the record alone. -/
theorem EditsRecord.content (edits : A.EditsRecord s j r setting B)
    (change : RecordRow → RecordRow) (keyed : A.tables.Keyed)
    (stays : ∀ x, (change x).stream = x.stream)
    (digest : (change r).digest = r.digest)
    (changes : ∀ t id, (applySetting t id setting).map Prod.fst = some (setRecord t id change).1)
    (h : A.audit H = .ok report) :
    ∃ report', B.audit H = .ok report' ∧ report.AfterContent H s j r (change r) report' := by
  obtain ⟨as, answers⟩ := (answersAudit_of_audit h).exists_answers
  obtain ⟨computes, rfl⟩ := (audit_eq_ok_iff_of_answers answers).1 h
  obtain ⟨ids, names⟩ := answers.keyed keyed
  obtain ⟨a, ha, rfl, r₀, r₁, there, made₀, made₁, answers'⟩ :=
    edits.answers change keyed stays changes answers
  obtain ⟨link₀, digest₀⟩ := Tables.link_of_record made₀
  obtain ⟨link₁, digest₁⟩ := Tables.link_of_record made₁
  have same : r₁.digest = r₀.digest := Digest.ext (digest₁.trans (digest.trans digest₀.symm))
  have stream : r₁.stream = r₀.stream :=
    (congrArg Link.stream link₁).trans ((stays r).trans (congrArg Link.stream link₀).symm)
  obtain ⟨changed, tips⟩ := changesAt_of_content (H := H) names ids ha there same
  refine ⟨_, (audit_eq_ok_iff_of_answers answers').2 ⟨computes.withRecord there stream, rfl⟩,
    changed, tips, fun clean other sized sized' => ?_⟩
  rw [← link₀, ← link₁] at other ⊢
  refine (finds_content names computes clean ha there stream same other ?_ ?_).imp id
    fun collides => ⟨_, collides⟩
  · exact lt_of_eq_of_lt (congrArg (fun l : Link => l.payload.length) link₀) sized
  · exact lt_of_eq_of_lt (congrArg (fun l : Link => l.payload.length) link₁) sized'

/-- **Another digest of a record** shows at the record and the one behind it. -/
theorem EditsRecord.digest {value : Bytes}
    (edits : A.EditsRecord s j r (.recordDigest value) B) (keyed : A.tables.Keyed)
    (h : A.audit H = .ok report) :
    ∃ report', B.audit H = .ok report' ∧ report.AfterDigest A.tables s j r value report' := by
  obtain ⟨as, answers⟩ := (answersAudit_of_audit h).exists_answers
  obtain ⟨computes, rfl⟩ := (audit_eq_ok_iff_of_answers answers).1 h
  obtain ⟨ids, names⟩ := answers.keyed keyed
  obtain ⟨a, ha, rfl, r₀, r₁, there, made₀, made₁, answers'⟩ :=
    edits.answers (fun r => { r with digest := value }) keyed (fun _ => rfl)
      (fun _ _ => rfl) answers
  obtain ⟨link₀, digest₀⟩ := Tables.link_of_record made₀
  obtain ⟨link₁, digest₁⟩ := Tables.link_of_record made₁
  have link : r₁.link = r₀.link := link₁.trans link₀.symm
  obtain ⟨changed, tips, others⟩ :=
    changesAt_of_digest H A.chainOf j r₁ names ids ha
  refine ⟨_, (audit_eq_ok_iff_of_answers answers').2
    ⟨computes.withRecord there (congrArg Link.stream link), rfl⟩, changed, fun later => tips ?_,
    others, fun clean other => finds_digest names computes clean ha there link fun same => other ?_⟩
  · have length := (Except.mapM_eq_ok_iff.1 (answers.recordsOf ha)).length_eq
    exact length ▸ later
  · rw [← digest₀, ← same, digest₁]

/-- **Another nonce of a stream** shows at the stream alone. -/
theorem EditsStream.nonce {value : Bytes} (edits : A.EditsStream k s (.streamNonce value) B)
    (keyed : A.tables.Keyed) (h : A.audit H = .ok report) :
    ∃ report', B.audit H = .ok report' ∧ report.AfterNonce H s k value report' := by
  obtain ⟨as, answers⟩ := (answersAudit_of_audit h).exists_answers
  obtain ⟨computes, rfl⟩ := (audit_eq_ok_iff_of_answers answers).1 h
  obtain ⟨-, names⟩ := answers.keyed keyed
  obtain ⟨front, a, a', back, rfl, place, made, made', answers'⟩ :=
    edits.answers (fun s => { s with nonce := value }) keyed rfl (fun _ _ => rfl) answers
  obtain rfl := Tables.anchor_eq_ok made
  have row := Tables.anchor_eq_ok made'
  have id : a'.id = a.id := congrArg StreamRow.id row
  have descriptor : a'.descriptor = a.descriptor := congrArg StreamRow.descriptor row
  have digest : a'.digest = a.digest := Digest.ext (congrArg StreamRow.digest row)
  have nonce : a'.nonce.bytes = value := congrArg StreamRow.nonce row
  obtain ⟨changed, tips⟩ := changesAt_of_nonce H A.chainOf names id descriptor digest
  have ne : value ≠ a.row.nonce → a'.nonce ≠ a.nonce := fun other same =>
    other (nonce.symm.trans (congrArg Nonce.bytes same))
  refine ⟨_, (audit_eq_ok_iff_of_answers answers').2 ⟨computes.withAnchor id descriptor, rfl⟩,
    changed, tips, fun clean other later =>
      finds_anchor names computes clean descriptor (ne other) ?_, fun clean other => ?_⟩
  · rintro rfl
    exact absurd place (Nat.ne_of_lt later)
  · exact (finds_nonce names computes clean descriptor digest (ne other)).imp_right fun collides =>
      ⟨a.nonce, a'.nonce, rfl, nonce, collides⟩

/-- **Another digest of a stream** shows at the stream, at the nonce of the next one and at the
first record. -/
theorem EditsStream.digest {value : Bytes} (edits : A.EditsStream k s (.streamDigest value) B)
    (keyed : A.tables.Keyed) (h : A.audit H = .ok report) :
    ∃ report', B.audit H = .ok report' ∧
      report.AfterStreamDigest A.tables s k value report' := by
  obtain ⟨as, answers⟩ := (answersAudit_of_audit h).exists_answers
  obtain ⟨computes, rfl⟩ := (audit_eq_ok_iff_of_answers answers).1 h
  obtain ⟨-, names⟩ := answers.keyed keyed
  have rows := Tables.streams_of_anchorList (tables_anchorList answers.anchors)
  obtain ⟨front, a, a', back, rfl, place, made, made', answers'⟩ :=
    edits.answers (fun s => { s with digest := value }) keyed rfl (fun _ _ => rfl) answers
  obtain rfl := Tables.anchor_eq_ok made
  have row := Tables.anchor_eq_ok made'
  have id : a'.id = a.id := congrArg StreamRow.id row
  have descriptor : a'.descriptor = a.descriptor := congrArg StreamRow.descriptor row
  have nonce : a'.nonce = a.nonce := Nonce.ext (congrArg StreamRow.nonce row)
  have digest : a'.digest.bytes = value := congrArg StreamRow.digest row
  have next : A.tables.streams[k + 1]? = back.head?.map StreamAnchor.row := by
    rw [rows, List.getElem?_map, ← place, List.getElem?_append_right (by omega),
      Nat.add_sub_cancel_left, List.getElem?_cons_succ, List.head?_eq_getElem?]
  obtain ⟨changed, tips, others⟩ :=
    changesAt_of_streamDigest H A.chainOf names id descriptor nonce
  refine ⟨_, (audit_eq_ok_iff_of_answers answers').2 ⟨computes.withAnchor id descriptor, rfl⟩, ?_,
    fun some => tips ?_, others, fun clean other =>
      finds_streamDigest names computes clean descriptor nonce fun same => other ?_⟩
  · rw [next, Option.toList_map, List.map_map]
    exact changed
  · have length := (Except.mapM_eq_ok_iff.1 (answers.recordsOf (a := a) (by simp))).length_eq
    rw [← List.length_pos_iff] at some ⊢
    exact length ▸ some
  · rw [← digest, same]
    rfl

/-- **A single edit is reported where it was made.** Whatever the audit of a store reports, another
payload, timestamp or digest of a record, and another nonce or digest of a stream, change the report
at the spots that are computed from this value and nowhere else. -/
theorem single_edit (H : HashFunction) (keyed : A.tables.Keyed) (h : A.audit H = .ok report) :
    (∀ s j r value B, A.EditsRecord s j r (.recordPayload value) B → ∃ report',
      B.audit H = .ok report' ∧ report.AfterContent H s j r { r with payload := value } report') ∧
    (∀ s j r value B, A.EditsRecord s j r (.recordTimestamp value) B → ∃ report',
      B.audit H = .ok report' ∧ report.AfterContent H s j r { r with timestamp := value } report') ∧
    (∀ s j r value B, A.EditsRecord s j r (.recordDigest value) B → ∃ report',
      B.audit H = .ok report' ∧ report.AfterDigest A.tables s j r value report') ∧
    (∀ k s value B, A.EditsStream k s (.streamNonce value) B → ∃ report',
      B.audit H = .ok report' ∧ report.AfterNonce H s k value report') ∧
    ∀ k s value B, A.EditsStream k s (.streamDigest value) B → ∃ report',
      B.audit H = .ok report' ∧ report.AfterStreamDigest A.tables s k value report' := by
  refine ⟨fun s j r value B edits => ?_, fun s j r value B edits => ?_,
    fun s j r value B edits => edits.digest keyed h, fun k s value B edits => edits.nonce keyed h,
    fun k s value B edits => edits.digest keyed h⟩
  · exact edits.content (fun r => { r with payload := value }) keyed (fun _ => rfl) rfl
      (fun _ _ => rfl) h
  · exact edits.content (fun r => { r with timestamp := value }) keyed (fun _ => rfl) rfl
      (fun _ _ => rfl) h

/-- A clean store with a stream and two records, of which the first is given another digest. -/
theorem single_edit_found :
    let H : HashFunction := fun _ => default
    let a : StreamAnchor := ⟨⟨1⟩, ⟨"trades", "Trade", "json"⟩, Nonce.fill 1, default⟩
    let store : Store :=
      { engine := .memory
          ⟨[a], [(1, ⟨7, ⟨1⟩, [1], default⟩), (2, ⟨8, ⟨1⟩, [2], default⟩)], true, 2⟩ }
    let edited : Store := (store.replaceDigest 1 (Digest.fill 9)).1
    store.tables.Keyed ∧ ∃ report report', store.audit H = .ok report ∧ report.isClean = true ∧
      store.Edited 1 (.recordDigest (Digest.fill 9).bytes) edited ∧ edited.audit H = .ok report' ∧
      report.ChangesAt [recordSpot "trades" 0, recordSpot "trades" 1] report' ∧
      report'.tips = report.tips ∧ (report'.entry (recordSpot "trades" 0)).isSome = true := by
  intro H a store edited
  have keyed : store.tables.Keyed := ⟨by decide, by decide, by decide⟩
  have ofStream : checkStream H a = .ok [] := checkStream_eq_nil_iff.2
    (Except.map_eq_ok_iff.2 ⟨_, streamPreimage_eq_ok_iff.2 ⟨by decide, rfl⟩, rfl⟩)
  have computed : ∀ previous timestamp payload,
      recordDigest H previous ⟨timestamp, ⟨1⟩, payload⟩ = .ok default := fun _ _ _ =>
    Except.map_eq_ok_iff.2 ⟨_, recordPreimage_eq_ok_iff.2 ⟨rfl, rfl⟩, rfl⟩
  have ofRecords : checkRecords H "trades" a.digest 0
      [⟨7, ⟨1⟩, [1], default⟩, ⟨8, ⟨1⟩, [2], default⟩] = .ok [] := by
    rw [checkRecords, checkRecords, checkRecords, Record.link, Record.link, computed, computed]
    rfl
  have examined : examine H store (none, a) =
      .ok ⟨a, [⟨7, ⟨1⟩, [1], default⟩, ⟨8, ⟨1⟩, [2], default⟩], []⟩ :=
    examine_eq_ok_iff.2 ⟨[], [], [], ofStream, rfl, rfl, ofRecords, rfl, rfl⟩
  have audited := audit_eq_ok_iff.2 ⟨[a], _, rfl, .cons examined .nil, rfl⟩
  have edit := edited_of_replaceDigest (A := store) rfl (answersAudit_of_audit audited) 1
    (Digest.fill 9)
  obtain ⟨report', reported, shows⟩ := (single_edit H keyed audited).2.2.1 a.row 0
    ⟨1, ⟨1⟩, 7, [1], (default : Digest).bytes⟩ _ edited ⟨List.mem_cons_self, rfl, edit⟩
  exact ⟨keyed, _, report', audited, rfl, edit, reported, shows.changes, shows.tips (by decide),
    shows.found rfl (by decide)⟩

end Store

end SealedLog

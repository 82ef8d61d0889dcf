import SealedLog.Proofs.Audit.Spots
import SealedLog.Proofs.Chain.Collision

/-!
# Reports on rows of which one value was replaced

The values that an audit compares are computed from few others: the digest of a record from its
content and the stored digest before it, the digest of a stream from its nonce, and a nonce from the
digest of the stream before. So a value that is replaced shows at its own spot, and where another
value is computed from it.

* `Audit.withRecord`: the chains with a record replaced;
* `changesAt_of_content`, `changesAt_of_digest`: another content, or another digest, of a record;
* `changesAt_of_nonce`, `changesAt_of_streamDigest`: another nonce, or another digest, of a stream;
* `entry_withRecord`, `entry_withAnchor`: what a report has at the spot of the replaced value;
* `finds_digest`, `finds_content`, `finds_streamDigest`, `finds_nonce`, `finds_anchor`: in a store
  that was clean it is found.
-/

namespace SealedLog

variable {H : HashFunction}

/-! ### Digests at the end -/

/-- Records with the same digests end with the same one. -/
theorem endDigest_congr {records records' : List Record} (start : Digest)
    (same : records'.map Record.digest = records.map Record.digest) :
    endDigest start records' = endDigest start records := by
  rw [endDigest, endDigest, ← List.getLast?_map, ← List.getLast?_map, same]

theorem endDigest_take_succ {records : List Record} {i : Nat} {r : Record} (start : Digest)
    (there : records[i]? = some r) : endDigest start (records.take (i + 1)) = r.digest := by
  obtain ⟨inside, rfl⟩ := List.getElem?_eq_some_iff.1 there
  rw [List.take_succ_eq_append_getElem inside, endDigest_concat]

/-- Another record leaves the digests at the end of all parts but the one that ends with it. -/
theorem endDigest_take_set {records : List Record} {i j : Nat} (start : Digest) (r : Record)
    (inside : i ≤ records.length) (other : i ≠ j + 1) :
    endDigest start ((records.set j r).take i) = endDigest start (records.take i) := by
  rcases Nat.lt_or_ge j i with before | behind
  · -- the part ends with a later record than the one that was replaced
    obtain ⟨k, rfl⟩ : ∃ k, i = k + 1 := ⟨i - 1, by omega⟩
    have here := List.getElem?_eq_getElem (l := records) (i := k) (by omega)
    have there : (records.set j r)[k]? = some records[k] := by
      rw [List.getElem?_set_ne (by omega), here]
    rw [endDigest_take_succ _ here, endDigest_take_succ _ there]
  · rw [List.take_set_of_le behind]

/-- Another record that is not the last one leaves the digest at the end. -/
theorem endDigest_set_of_lt {records : List Record} {j : Nat} (start : Digest) (r : Record)
    (later : j + 1 < records.length) :
    endDigest start (records.set j r) = endDigest start records := by
  have whole := endDigest_take_set start r (Nat.le_refl records.length) (Nat.ne_of_gt later)
  rwa [List.take_length, List.take_of_length_le (Nat.le_of_eq List.length_set)] at whole

namespace Audit

variable {as front back : List StreamAnchor} {a a' b q : StreamAnchor}
  {chain : StreamId → List Record} {j : Nat} {r r' : Record} {affected : List Spot}
  {s name : String}

/-! ### Values of a report -/

theorem stream_mem_allChecks (ha : a ∈ as) : .stream a ∈ allChecks as chain := by
  obtain ⟨o, hp⟩ := exists_mem_behind none ha
  exact List.mem_flatMap.2 ⟨_, hp, by simp [checks]⟩

theorem anchor_mem_allChecks (h : (some q, a) ∈ behind none as) :
    .anchor q a ∈ allChecks as chain :=
  List.mem_flatMap.2 ⟨_, h, by simp [checks]⟩

theorem record_mem_allChecks (ha : a ∈ as) (there : (chain a.id)[j]? = some r) :
    .record a j (endDigest a.digest ((chain a.id).take j)) r ∈ allChecks as chain := by
  obtain ⟨o, hp⟩ := exists_mem_behind none ha
  obtain ⟨inside, rfl⟩ := List.getElem?_eq_some_iff.1 there
  refine List.mem_flatMap.2 ⟨_, hp, List.mem_append_right _ (List.mem_mapIdx.2 ⟨j, inside, ?_⟩)⟩
  rw [Nat.zero_add]

/-- What a report has at the spot of one of its values. -/
theorem entry_reportOf (H : HashFunction) (chain : StreamId → List Record)
    (distinct : (as.map fun a => a.descriptor.name).Nodup) {c : Check}
    (mem : c ∈ allChecks as chain) : (reportOf H as chain).entry c.spot = c.verdict H :=
  entry_of_mem (nodup_spots distinct chain) rfl mem

theorem verdict_of_clean (clean : (reportOf H as chain).isClean = true) {c : Check}
    (mem : c ∈ allChecks as chain) : c.verdict H = none :=
  List.filterMap_eq_nil_iff.1 (List.isEmpty_iff.1 clean) c mem

/-! ### Tips -/

/-- Reports that differ in the tips of streams of one name have the other tips in common. -/
theorem tip_of_forall₂ {report report' : AuditReport}
    (same : List.Forall₂ (fun x y => y.1 = x.1 ∧ (x.1 ≠ s → y.2 = x.2)) report.tips report'.tips)
    (other : name ≠ s) : report'.tip name = report.tip name := by
  have backwards := List.rel_reverse same
  rw [AuditReport.tip, AuditReport.tip]
  generalize report.tips.reverse = xs at backwards
  generalize report'.tips.reverse = ys at backwards
  induction backwards with
  | nil => rfl
  | @cons x y xs ys first _ ih =>
    rw [List.lookup_cons, List.lookup_cons, ih, first.1]
    by_cases here : name = x.1
    · rw [first.2 (here ▸ other)]
    · rw [beq_eq_false_iff_ne.2 here]

/-! ### Another record -/

/-- The chains with this record at this place of a stream. -/
def withRecord (chain : StreamId → List Record) (id : StreamId) (j : Nat) (r : Record) :
    StreamId → List Record :=
  Function.update chain id ((chain id).set j r)

theorem withRecord_self (chain : StreamId → List Record) (id : StreamId) (j : Nat) (r : Record) :
    withRecord chain id j r id = (chain id).set j r := Function.update_self ..

theorem withRecord_of_ne {id id' : StreamId} (h : id' ≠ id) (chain : StreamId → List Record)
    (j : Nat) (r : Record) : withRecord chain id j r id' = chain id' := Function.update_of_ne h ..

theorem length_withRecord (chain : StreamId → List Record) (id id' : StreamId) (j : Nat)
    (r : Record) : (withRecord chain id j r id').length = (chain id').length := by
  by_cases here : id' = id
  · rw [here, withRecord_self, List.length_set]
  · rw [withRecord_of_ne here]

/-- A record of the same stream leaves all digests computable. -/
theorem Computes.withRecord (computes : Computes as chain) (there : (chain a.id)[j]? = some r)
    (stays : r'.stream = r.stream) : Computes as (withRecord chain a.id j r') := by
  intro b hb
  refine ⟨(computes b hb).1, fun x hx => ?_⟩
  by_cases here : b.id = a.id
  · have assigned := (computes b hb).2
    rw [here] at assigned
    rw [here, withRecord_self] at hx
    rcases List.mem_or_eq_of_mem_set hx with old | rfl
    · exact assigned x old
    · rw [stays]
      exact assigned r (List.mem_of_getElem? there)
  · rw [withRecord_of_ne here] at hx
    exact (computes b hb).2 x hx

/-- Records are compared place by place. -/
theorem forall₂_recordChecks {R : Check → Check → Prop} {previous previous' : Digest}
    {records records' : List Record} (length : records.length = records'.length)
    (each : ∀ i x x', records[i]? = some x → records'[i]? = some x' →
      R (.record a i (endDigest previous (records.take i)) x)
        (.record a' i (endDigest previous' (records'.take i)) x')) :
    List.Forall₂ R (recordChecks a previous 0 records) (recordChecks a' previous' 0 records') := by
  refine List.forall₂_iff_get.2 ⟨by simpa [recordChecks] using length, fun i here there => ?_⟩
  have inside : i < records.length := by simpa [recordChecks] using here
  have inside' : i < records'.length := by simpa [recordChecks] using there
  have pair := each i _ _ (List.getElem?_eq_getElem inside) (List.getElem?_eq_getElem inside')
  simpa [recordChecks] using pair

theorem agree_self (cs : List Check) : List.Forall₂ (Check.AgreesOff H affected) cs cs :=
  List.forall₂_same.2 fun c _ => .refl affected c

/-- Where one record is replaced, the values agree but for those of this stream's records. -/
theorem forall₂_withRecord (ids : (as.map StreamAnchor.id).Nodup) (ha : a ∈ as)
    (each : ∀ i x x', (chain a.id)[i]? = some x → ((chain a.id).set j r')[i]? = some x' →
      (Check.record a i (endDigest a.digest ((chain a.id).take i)) x).AgreesOff H affected
        (.record a i (endDigest a.digest (((chain a.id).set j r').take i)) x')) :
    List.Forall₂ (Check.AgreesOff H affected) (allChecks as chain)
      (allChecks as (withRecord chain a.id j r')) := by
  have streams : List.Forall₂ (fun p p' => List.Forall₂ (Check.AgreesOff H affected)
      (checks p (chain p.2.id)) (checks p' (withRecord chain a.id j r' p'.2.id)))
      (behind none as) (behind none as) := by
    refine List.forall₂_same.2 fun p hp => ?_
    by_cases here : p.2.id = a.id
    · obtain rfl := List.inj_on_of_nodup_map ids (snd_mem_of_mem_behind hp) ha here
      rw [withRecord_self]
      exact List.rel_append (agree_self _) (forall₂_recordChecks (List.length_set ..).symm each)
    · rw [withRecord_of_ne here]
      exact agree_self _
  exact List.rel_flatMap streams fun _ _ agree => agree

/-- Where one record is replaced, streams and records are as many. -/
theorem changesAt_of_record (names : (as.map fun a => a.descriptor.name).Nodup)
    (agree : List.Forall₂ (Check.AgreesOff H affected) (allChecks as chain)
      (allChecks as (withRecord chain a.id j r'))) :
    (reportOf H as chain).ChangesAt affected (reportOf H as (withRecord chain a.id j r')) := by
  refine changesAt_of_checks names agree rfl (congrArg List.sum ?_)
  exact List.map_congr_left fun b _ => length_withRecord ..

/-- The spot of a record. -/
def recordSpot (name : String) (j : Nat) : Spot := ⟨.recordDigestMismatch, name, some j⟩

/-- The spot of the digest of a stream. -/
def streamSpot (name : String) : Spot := ⟨.streamDigestMismatch, name, none⟩

/-- The spot of the nonce of a stream. -/
def anchorSpot (name : String) : Spot := ⟨.anchorBreak, name, none⟩

/-- **Another content of a record shows at the record alone.** -/
theorem changesAt_of_content (names : (as.map fun a => a.descriptor.name).Nodup)
    (ids : (as.map StreamAnchor.id).Nodup) (ha : a ∈ as) (there : (chain a.id)[j]? = some r)
    (digest : r'.digest = r.digest) :
    (reportOf H as chain).ChangesAt [recordSpot a.descriptor.name j]
        (reportOf H as (withRecord chain a.id j r')) ∧
      (reportOf H as (withRecord chain a.id j r')).tips = (reportOf H as chain).tips := by
  -- every record stands behind the digest that it stood behind before
  have digests : ((chain a.id).set j r').map Record.digest = (chain a.id).map Record.digest := by
    obtain ⟨inside, rfl⟩ := List.getElem?_eq_some_iff.1 there
    rw [List.map_set, digest, ← List.getElem_map Record.digest (h := by simpa using inside),
      List.set_getElem_self]
  refine ⟨changesAt_of_record names (forall₂_withRecord ids ha fun i x x' hx hx' => ?_), ?_⟩
  · refine ⟨rfl, fun elsewhere => ?_⟩
    have other : j ≠ i := by
      rintro rfl
      exact elsewhere (List.mem_singleton.2 rfl)
    rw [List.getElem?_set_ne other] at hx'
    obtain rfl := Option.some.inj (hx.symm.trans hx')
    have front : endDigest a.digest (((chain a.id).set j r').take i) =
        endDigest a.digest ((chain a.id).take i) := by
      refine endDigest_congr _ ?_
      rw [List.map_take, List.map_take, digests]
    rw [front]
  · refine List.map_congr_left fun b hb => Prod.ext rfl ?_
    by_cases here : b.id = a.id
    · obtain rfl := List.inj_on_of_nodup_map ids hb ha here
      rw [withRecord_self]
      exact endDigest_congr b.digest digests
    · rw [withRecord_of_ne here]

/-- **Another digest of a record shows at the record and the one behind it**, and at the tip if
there is none behind it. -/
theorem changesAt_of_digest (H : HashFunction) (chain : StreamId → List Record) (j : Nat)
    (r' : Record) (names : (as.map fun a => a.descriptor.name).Nodup)
    (ids : (as.map StreamAnchor.id).Nodup) (ha : a ∈ as) :
    (reportOf H as chain).ChangesAt
        [recordSpot a.descriptor.name j, recordSpot a.descriptor.name (j + 1)]
        (reportOf H as (withRecord chain a.id j r')) ∧
      (j + 1 < (chain a.id).length →
        (reportOf H as (withRecord chain a.id j r')).tips = (reportOf H as chain).tips) ∧
      ∀ name, name ≠ a.descriptor.name →
        (reportOf H as (withRecord chain a.id j r')).tip name = (reportOf H as chain).tip name := by
  refine ⟨changesAt_of_record names (forall₂_withRecord ids ha fun i x x' hx hx' => ?_),
    fun later => ?_, fun name other => ?_⟩
  · refine ⟨rfl, fun elsewhere => ?_⟩
    have other : j ≠ i := by
      rintro rfl
      exact elsewhere (by simp [Check.spot, recordSpot])
    have notNext : i ≠ j + 1 := by
      rintro rfl
      exact elsewhere (by simp [Check.spot, recordSpot])
    rw [List.getElem?_set_ne other] at hx'
    obtain rfl := Option.some.inj (hx.symm.trans hx')
    obtain ⟨inside, -⟩ := List.getElem?_eq_some_iff.1 hx
    rw [endDigest_take_set a.digest r' (Nat.le_of_lt inside) notNext]
  · refine List.map_congr_left fun b hb => Prod.ext rfl ?_
    by_cases here : b.id = a.id
    · obtain rfl := List.inj_on_of_nodup_map ids hb ha here
      rw [withRecord_self]
      exact endDigest_set_of_lt b.digest r' later
    · rw [withRecord_of_ne here]
  · refine tip_of_forall₂ (s := a.descriptor.name) ?_ other
    refine List.forall₂_map_left_iff.2 (List.forall₂_map_right_iff.2
      (List.forall₂_same.2 fun b hb => ⟨rfl, fun ne => ?_⟩))
    have apart : b.id ≠ a.id := fun here => ne (List.inj_on_of_nodup_map ids hb ha here ▸ rfl)
    rw [withRecord_of_ne apart]

/-! ### Another stream -/

theorem behind_append (previous : Option StreamAnchor) (front : List StreamAnchor)
    (a : StreamAnchor) (back : List StreamAnchor) :
    behind previous (front ++ a :: back) =
      behind previous front ++ (front.getLast?.or previous, a) :: behind (some a) back := by
  induction front generalizing previous with
  | nil => rfl
  | cons b rest ih =>
    rw [List.cons_append, behind, ih, behind, List.getLast?_cons, List.cons_append]
    cases rest.getLast? <;> rfl

/-- Where one stream is replaced, the values agree but for its own and the nonce behind it. -/
theorem forall₂_withAnchor (id : a'.id = a.id)
    (stream : (Check.stream a).AgreesOff H affected (.stream a'))
    (anchor : ∀ q, (Check.anchor q a).AgreesOff H affected (.anchor q a'))
    (record : ∀ i x, (chain a.id)[i]? = some x →
      (Check.record a i (endDigest a.digest ((chain a.id).take i)) x).AgreesOff H affected
        (.record a' i (endDigest a'.digest ((chain a.id).take i)) x))
    (next : ∀ b ∈ back.head?, (Check.anchor a b).AgreesOff H affected (.anchor a' b)) :
    List.Forall₂ (Check.AgreesOff H affected) (allChecks (front ++ a :: back) chain)
      (allChecks (front ++ a' :: back) chain) := by
  have own : ∀ o, List.Forall₂ (Check.AgreesOff H affected) (checks (o, a) (chain a.id))
      (checks (o, a') (chain a.id)) := by
    intro o
    refine List.rel_append (.cons stream ?_) (forall₂_recordChecks rfl fun i x x' hx hx' => ?_)
    · exact List.forall₂_map_left_iff.2 (List.forall₂_map_right_iff.2
        (List.forall₂_same.2 fun q _ => anchor q))
    · obtain rfl := Option.some.inj (hx.symm.trans hx')
      exact record i x hx
  have later : List.Forall₂ (Check.AgreesOff H affected)
      ((behind (some a) back).flatMap fun p => checks p (chain p.2.id))
      ((behind (some a') back).flatMap fun p => checks p (chain p.2.id)) := by
    cases back with
    | nil => exact .nil
    | cons b rest =>
      rw [behind, behind, List.flatMap_cons, List.flatMap_cons]
      refine List.rel_append ?_ (agree_self _)
      exact List.rel_append (.cons (.refl ..) (.cons (next b rfl) .nil)) (agree_self _)
  rw [allChecks, allChecks, behind_append, behind_append, List.flatMap_append, List.flatMap_append,
    List.flatMap_cons, List.flatMap_cons]
  refine List.rel_append (agree_self _) (List.rel_append ?_ later)
  rw [id]
  exact own _

/-- Another stream of the same number and descriptor leaves all digests computable. -/
theorem Computes.withAnchor (computes : Computes (front ++ a :: back) chain) (id : a'.id = a.id)
    (descriptor : a'.descriptor = a.descriptor) : Computes (front ++ a' :: back) chain := by
  intro b hb
  rcases List.mem_append.1 hb with before | rest
  · exact computes b (List.mem_append_left _ before)
  · rcases List.mem_cons.1 rest with rfl | after
    · rw [id, descriptor]
      exact computes a (by simp)
    · exact computes b (by simp [after])

/-- Where one stream is replaced, streams and records are as many. -/
theorem changesAt_of_anchor
    (names : ((front ++ a :: back).map fun a => a.descriptor.name).Nodup) (id : a'.id = a.id)
    (agree : List.Forall₂ (Check.AgreesOff H affected) (allChecks (front ++ a :: back) chain)
      (allChecks (front ++ a' :: back) chain)) :
    (reportOf H (front ++ a :: back) chain).ChangesAt affected
      (reportOf H (front ++ a' :: back) chain) := by
  refine changesAt_of_checks names agree (by simp) ?_
  rw [List.map_append, List.map_append, List.map_cons, List.map_cons, id]

/-- **Another nonce of a stream shows at the stream alone**, at its digest and its nonce. -/
theorem changesAt_of_nonce (H : HashFunction) (chain : StreamId → List Record)
    (names : ((front ++ a :: back).map fun a => a.descriptor.name).Nodup)
    (id : a'.id = a.id) (descriptor : a'.descriptor = a.descriptor)
    (digest : a'.digest = a.digest) :
    (reportOf H (front ++ a :: back) chain).ChangesAt
        [streamSpot a.descriptor.name, anchorSpot a.descriptor.name]
        (reportOf H (front ++ a' :: back) chain) ∧
      (reportOf H (front ++ a' :: back) chain).tips =
        (reportOf H (front ++ a :: back) chain).tips := by
  constructor
  · refine changesAt_of_anchor names id (forall₂_withAnchor id ⟨?_, fun elsewhere => ?_⟩
      (fun q => ⟨?_, fun elsewhere => ?_⟩) (fun i x _ => ⟨?_, fun _ => ?_⟩)
      fun b _ => ⟨rfl, fun _ => ?_⟩)
    · rw [Check.spot, Check.spot, descriptor]
    · exact absurd (by simp [Check.spot, streamSpot]) elsewhere
    · rw [Check.spot, Check.spot, descriptor]
    · exact absurd (by simp [Check.spot, anchorSpot]) elsewhere
    · rw [Check.spot, Check.spot, descriptor]
    · rw [Check.verdict, Check.verdict, descriptor, digest]
    · rw [Check.verdict, Check.verdict, descriptor, digest]
  · simp only [reportOf, List.map_append, List.map_cons, id, descriptor, lastDigest, digest]

/-- **Another digest of a stream shows at the stream, at the nonce of the next one and at the first
record**, and at the tip if there is no record. -/
theorem changesAt_of_streamDigest (H : HashFunction) (chain : StreamId → List Record)
    (names : ((front ++ a :: back).map fun a => a.descriptor.name).Nodup) (id : a'.id = a.id)
    (descriptor : a'.descriptor = a.descriptor) (nonce : a'.nonce = a.nonce) :
    (reportOf H (front ++ a :: back) chain).ChangesAt
        (streamSpot a.descriptor.name :: recordSpot a.descriptor.name 0 ::
          back.head?.toList.map fun b => anchorSpot b.descriptor.name)
        (reportOf H (front ++ a' :: back) chain) ∧
      (chain a.id ≠ [] → (reportOf H (front ++ a' :: back) chain).tips =
        (reportOf H (front ++ a :: back) chain).tips) ∧
      ∀ name, name ≠ a.descriptor.name → (reportOf H (front ++ a' :: back) chain).tip name =
        (reportOf H (front ++ a :: back) chain).tip name := by
  refine ⟨?_, fun some => ?_, fun name other => ?_⟩
  · refine changesAt_of_anchor names id (forall₂_withAnchor id ⟨?_, fun elsewhere => ?_⟩
      (fun q => ⟨?_, fun _ => ?_⟩) (fun i x hx => ⟨?_, fun elsewhere => ?_⟩)
      fun b hb => ⟨rfl, fun elsewhere => ?_⟩)
    · rw [Check.spot, Check.spot, descriptor]
    · exact absurd (by simp [Check.spot, streamSpot]) elsewhere
    · rw [Check.spot, Check.spot, descriptor]
    · rw [Check.verdict, Check.verdict, descriptor, nonce]
    · rw [Check.spot, Check.spot, descriptor]
    · -- only the first record stands behind the digest of the stream
      obtain ⟨k, rfl⟩ : ∃ k, i = k + 1 := by
        refine Nat.exists_eq_add_one_of_ne_zero ?_
        rintro rfl
        exact elsewhere (by simp [Check.spot, recordSpot])
      obtain ⟨inside, -⟩ := List.getElem?_eq_some_iff.1 hx
      have here := List.getElem?_eq_getElem (l := chain a.id) (i := k) (by omega)
      rw [Check.verdict, Check.verdict, endDigest_take_succ _ here, endDigest_take_succ _ here,
        descriptor]
    · refine absurd ?_ elsewhere
      rw [Option.mem_def.1 hb]
      simp [Check.spot, anchorSpot]
  · have last : lastDigest a' (chain a.id) = lastDigest a (chain a.id) := by
      rw [lastDigest, lastDigest, List.getLast?_eq_some_getLast some]
      rfl
    simp only [reportOf, List.map_append, List.map_cons, id, descriptor, last]
  · refine tip_of_forall₂ (s := a.descriptor.name) ?_ other
    have same : ∀ xs : List (String × Digest), List.Forall₂
        (fun x y => y.1 = x.1 ∧ (x.1 ≠ a.descriptor.name → y.2 = x.2)) xs xs :=
      fun xs => List.forall₂_same.2 fun _ _ => ⟨rfl, fun _ => rfl⟩
    simp only [reportOf, List.map_append, List.map_cons]
    refine List.rel_append (same _) (.cons ⟨?_, fun ne => absurd rfl ne⟩ (same _))
    rw [descriptor]

/-! ### What shows in a store that was clean -/

/-- In a clean store every record has the digest that is computed for it. -/
theorem recordDigest_of_clean (computes : Computes as chain)
    (clean : (reportOf H as chain).isClean = true) (ha : a ∈ as)
    (there : (chain a.id)[j]? = some r) :
    recordDigest H (endDigest a.digest ((chain a.id).take j)) r.link = .ok r.digest := by
  have assigned : 1 ≤ r.link.stream.number :=
    (computes a ha).2 r (List.mem_of_getElem? there)
  obtain ⟨computed, hc⟩ := exists_recordDigest (H := H) assigned
    (endDigest a.digest ((chain a.id).take j))
  have same := (compare_eq_none_iff hc).1 (verdict_of_clean clean (record_mem_allChecks ha there))
  rw [hc, same]

theorem streamDigest_of_clean (computes : Computes as chain)
    (clean : (reportOf H as chain).isClean = true) (ha : a ∈ as) :
    streamDigest H a.nonce a.descriptor = .ok a.digest := by
  obtain ⟨computed, hc⟩ := exists_streamDigest (H := H) (computes a ha).1 a.nonce
  have same := (compare_eq_none_iff hc).1 (verdict_of_clean clean (stream_mem_allChecks ha))
  rw [hc, same]

theorem nextNonce_of_clean (computes : Computes as chain)
    (clean : (reportOf H as chain).isClean = true) (h : (some q, a) ∈ behind none as) :
    nextNonce H q.digest q.descriptor = .ok a.nonce := by
  obtain ⟨computed, hc⟩ :=
    exists_nextNonce (H := H) (computes q (fst_mem_of_mem_behind h)).1 q.digest
  have same := (compare_eq_none_iff hc).1 (verdict_of_clean clean (anchor_mem_allChecks h))
  rw [hc, same]

/-- What a report has at the spot of a record that was replaced. -/
theorem entry_withRecord (names : (as.map fun a => a.descriptor.name).Nodup) (ha : a ∈ as)
    (there : (chain a.id)[j]? = some r) :
    (reportOf H as (withRecord chain a.id j r')).entry (recordSpot a.descriptor.name j) =
      (Check.record a j (endDigest a.digest ((chain a.id).take j)) r').verdict H := by
  obtain ⟨inside, -⟩ := List.getElem?_eq_some_iff.1 there
  have here : (withRecord chain a.id j r' a.id)[j]? = some r' := by
    rw [withRecord_self, List.getElem?_set_self inside]
  have entry := entry_reportOf H _ names (record_mem_allChecks ha here)
  rw [withRecord_self, List.take_set_of_le (Nat.le_refl j)] at entry
  exact entry

/-- **Another digest of a record of a clean store is found** at the record. -/
theorem finds_digest (names : (as.map fun a => a.descriptor.name).Nodup)
    (computes : Computes as chain) (clean : (reportOf H as chain).isClean = true) (ha : a ∈ as)
    (there : (chain a.id)[j]? = some r) (link : r'.link = r.link) (other : r'.digest ≠ r.digest) :
    ((reportOf H as (withRecord chain a.id j r')).entry
      (recordSpot a.descriptor.name j)).isSome = true := by
  have computed := recordDigest_of_clean computes clean ha there
  rw [entry_withRecord names ha there]
  refine (compare_isSome_iff ?_).2 (Ne.symm other)
  rw [link]
  exact computed

/-- Another content of a record of a clean store is found at the record, unless it collides. -/
theorem finds_content (names : (as.map fun a => a.descriptor.name).Nodup)
    (computes : Computes as chain) (clean : (reportOf H as chain).isClean = true) (ha : a ∈ as)
    (there : (chain a.id)[j]? = some r) (stays : r'.stream = r.stream)
    (digest : r'.digest = r.digest) (other : r'.link ≠ r.link) (sized : r.payload.length < 2 ^ 64)
    (sized' : r'.payload.length < 2 ^ 64) :
    ((reportOf H as (withRecord chain a.id j r')).entry
        (recordSpot a.descriptor.name j)).isSome = true ∨
      Collides H (hashedBy (recordPreimage (endDigest a.digest ((chain a.id).take j)) r.link) ++
        hashedBy (recordPreimage (endDigest a.digest ((chain a.id).take j)) r'.link)) := by
  have assigned : 1 ≤ r'.link.stream.number := by
    show 1 ≤ r'.stream.number
    rw [stays]
    exact (computes a ha).2 r (List.mem_of_getElem? there)
  have stored := recordDigest_of_clean computes clean ha there
  obtain ⟨computed, hc⟩ := exists_recordDigest (H := H) assigned
    (endDigest a.digest ((chain a.id).take j))
  rw [entry_withRecord names ha there]
  by_cases same : computed = r'.digest
  · -- two contents with one digest are two octet strings with one hash
    refine .inr ?_
    obtain ⟨octets, made, hash⟩ := Except.map_eq_ok_iff.1 stored
    obtain ⟨octets', made', hash'⟩ := Except.map_eq_ok_iff.1 hc
    refine collides_append (mem_hashedBy.2 made) (mem_hashedBy.2 made') ?_ hash hash'
      (digest.symm.trans same.symm)
    rintro rfl
    exact other (recordPreimage_inj sized' sized made' made).2
  · exact .inl ((compare_isSome_iff hc).2 same)

/-- What a report has at the spot of a stream that was replaced. -/
theorem entry_withAnchor (names : ((front ++ a :: back).map fun a => a.descriptor.name).Nodup)
    (descriptor : a'.descriptor = a.descriptor) :
    (reportOf H (front ++ a' :: back) chain).entry (streamSpot a.descriptor.name) =
      (Check.stream a').verdict H := by
  have names' : ((front ++ a' :: back).map fun a => a.descriptor.name).Nodup := by
    rw [List.map_append, List.map_cons] at names ⊢
    rwa [descriptor]
  rw [← descriptor]
  exact entry_reportOf H _ names' (stream_mem_allChecks (by simp))

/-- **Another digest of a stream of a clean store is found** at the stream. -/
theorem finds_streamDigest (names : ((front ++ a :: back).map fun a => a.descriptor.name).Nodup)
    (computes : Computes (front ++ a :: back) chain)
    (clean : (reportOf H (front ++ a :: back) chain).isClean = true)
    (descriptor : a'.descriptor = a.descriptor) (nonce : a'.nonce = a.nonce)
    (other : a'.digest ≠ a.digest) :
    ((reportOf H (front ++ a' :: back) chain).entry
      (streamSpot a.descriptor.name)).isSome = true := by
  have computed := streamDigest_of_clean computes clean (a := a) (by simp)
  rw [entry_withAnchor names descriptor]
  refine (compare_isSome_iff ?_).2 (Ne.symm other)
  rw [nonce, descriptor]
  exact computed

/-- Another nonce of a stream of a clean store is found at the stream, unless it collides. -/
theorem finds_nonce (names : ((front ++ a :: back).map fun a => a.descriptor.name).Nodup)
    (computes : Computes (front ++ a :: back) chain)
    (clean : (reportOf H (front ++ a :: back) chain).isClean = true)
    (descriptor : a'.descriptor = a.descriptor) (digest : a'.digest = a.digest)
    (other : a'.nonce ≠ a.nonce) :
    ((reportOf H (front ++ a' :: back) chain).entry (streamSpot a.descriptor.name)).isSome = true ∨
      Collides H (hashedBy (streamPreimage a.nonce a.descriptor) ++
        hashedBy (streamPreimage a'.nonce a.descriptor)) := by
  have mem : a ∈ front ++ a :: back := by simp
  have stored := streamDigest_of_clean computes clean mem
  obtain ⟨computed, hc⟩ := exists_streamDigest (H := H) (computes a mem).1 a'.nonce
  rw [entry_withAnchor names descriptor]
  by_cases same : computed = a'.digest
  · refine .inr ?_
    obtain ⟨octets, made, hash⟩ := Except.map_eq_ok_iff.1 stored
    obtain ⟨octets', made', hash'⟩ := Except.map_eq_ok_iff.1 hc
    refine collides_append (mem_hashedBy.2 made) (mem_hashedBy.2 made') ?_ hash hash'
      (digest.symm.trans same.symm)
    intro equal
    rw [(streamPreimage_eq_ok_iff.1 made).2, (streamPreimage_eq_ok_iff.1 made').2] at equal
    have first := (framed_inj (a.nonce.length_eq.trans a'.nonce.length_eq.symm) equal).1
    exact other (Nonce.ext first).symm
  · refine .inl ((compare_isSome_iff ?_).2 same)
    rw [descriptor]
    exact hc

/-- **Another nonce of a stream that is not the first one is found** at its nonce. -/
theorem finds_anchor (names : ((front ++ a :: back).map fun a => a.descriptor.name).Nodup)
    (computes : Computes (front ++ a :: back) chain)
    (clean : (reportOf H (front ++ a :: back) chain).isClean = true)
    (descriptor : a'.descriptor = a.descriptor) (other : a'.nonce ≠ a.nonce) (later : front ≠ []) :
    ((reportOf H (front ++ a' :: back) chain).entry
      (anchorSpot a.descriptor.name)).isSome = true := by
  obtain ⟨first, q, rfl⟩ := List.eq_nil_or_concat front |>.resolve_left later
  rw [List.concat_eq_append, List.append_assoc, List.singleton_append] at names computes clean ⊢
  have names' : ((first ++ q :: a' :: back).map fun a => a.descriptor.name).Nodup := by
    rw [List.map_append, List.map_cons, List.map_cons] at names ⊢
    rwa [descriptor]
  have follows := nextNonce_of_clean computes clean (mem_behind_of_split first back)
  have entry := entry_reportOf H chain names'
    (anchor_mem_allChecks (mem_behind_of_split first back))
  rw [← descriptor]
  refine (congrArg Option.isSome entry).trans ?_
  exact (compare_isSome_iff follows).2 (Ne.symm other)

end Audit

end SealedLog

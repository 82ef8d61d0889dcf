import SealedLog.Proofs.Audit.Answers

/-!
# What a report has at each spot

Every stored value that an audit compares has a spot of its own: the kind of the value, the name of
the stream, and the place of the record. A report lists the spots whose values differ, always in one
order, so that two reports can be compared spot by spot.

* `Spot`, `AuditReport.entry`: what a report has at a spot;
* `Audit.verdict`, `Audit.reportOf`: what comes of one stored value, and the report of given rows;
* `Store.audit_eq_ok_iff_of_answers`: an audit gives the report of the rows that are answered;
* `AuditReport.ChangesAt`: two reports differ at some spots at most, and `changesAt_of_checks`.
-/

namespace SealedLog

variable {H : HashFunction} {store : Store}

/-- Which stored value of a store. -/
structure Spot where
  kind : ViolationKind
  stream : String
  index : Option Nat
  deriving DecidableEq

/-- The stored value that a violation is about. -/
def Violation.spot (v : Violation) : Spot := ⟨v.kind, v.stream, v.recordIndex⟩

/-- What a report has about a stored value. -/
def AuditReport.entry (report : AuditReport) (spot : Spot) : Option Violation :=
  report.violations.find? fun v => v.spot == spot

namespace Audit

variable {α : Type} [DecidableEq α] {x : Except InputError α} {stored computed : α}
  {report : α → Violation} {a q : StreamAnchor} {c : Check} {v : Violation}

/-! ### One stored value -/

/-- What comes of a stored value and the computed one. -/
def compare (x : Except InputError α) (stored : α) (report : α → Violation) : Option Violation :=
  match x with
  | .ok computed => if computed = stored then none else some (report computed)
  | .error _ => none

theorem compare_eq_none_iff (h : x = .ok computed) :
    compare x stored report = none ↔ computed = stored := by
  subst h
  rw [compare]
  split_ifs with same <;> simp [same]

theorem compare_isSome_iff (h : x = .ok computed) :
    (compare x stored report).isSome = true ↔ computed ≠ stored := by
  rw [Option.isSome_iff_ne_none, Ne, compare_eq_none_iff h]

theorem exists_of_compare (h : compare x stored report = some v) :
    ∃ computed, v = report computed := by
  unfold compare at h
  split at h
  · split_ifs at h
    exact ⟨_, (Option.some.inj h).symm⟩
  · cases h

namespace Check

/-- The spot of a stored value. -/
def spot : Check → Spot
  | .stream a => ⟨.streamDigestMismatch, a.descriptor.name, none⟩
  | .anchor _ a => ⟨.anchorBreak, a.descriptor.name, none⟩
  | .record a index _ _ => ⟨.recordDigestMismatch, a.descriptor.name, some index⟩

/-- The violation that a stored value is reported by, if it differs from the computed one. -/
def verdict (H : HashFunction) : Check → Option Violation
  | .stream a =>
    compare (streamDigest H a.nonce a.descriptor) a.digest fun computed =>
      ⟨.streamDigestMismatch, a.descriptor.name, none, difference a.digest computed⟩
  | .anchor q a =>
    compare (nextNonce H q.digest q.descriptor) a.nonce fun _ =>
      ⟨.anchorBreak, a.descriptor.name, none,
        "nonce does not follow from stream '" ++ q.descriptor.name ++ "'"⟩
  | .record a index previous r =>
    compare (recordDigest H previous r.link) r.digest fun computed =>
      ⟨.recordDigestMismatch, a.descriptor.name, some index, difference r.digest computed⟩

/-- A violation is about the value that it is reported for. -/
theorem spot_of_verdict (h : c.verdict H = some v) : v.spot = c.spot := by
  cases c with
  | stream a => obtain ⟨_, rfl⟩ := exists_of_compare h; rfl
  | anchor q a => obtain ⟨_, rfl⟩ := exists_of_compare h; rfl
  | record a index previous r => obtain ⟨_, rfl⟩ := exists_of_compare h; rfl

end Check

/-- What is found by one comparison. -/
theorem found_eq_of_compared {found : List Violation}
    (h : (do let computed ← x; return if computed = stored then [] else [report computed]) =
      .ok found) : found = (compare x stored report).toList := by
  obtain ⟨computed, hc, h⟩ := Except.bind_eq_ok_iff.1 h
  obtain rfl := Except.ok.inj h
  rw [hc, compare]
  split_ifs <;> rfl

theorem checkRecords_found {previous : Digest} {index : Nat} {records : List Record}
    {found : List Violation}
    (h : checkRecords H a.descriptor.name previous index records = .ok found) :
    found = (recordChecks a previous index records).filterMap (Check.verdict H) := by
  induction records generalizing previous index found with
  | nil =>
    cases h
    rfl
  | cons r rest ih =>
    obtain ⟨computed, hc, h⟩ := Except.bind_eq_ok_iff.1 h
    obtain ⟨later, hl, h⟩ := Except.bind_eq_ok_iff.1 h
    obtain rfl := Except.ok.inj h
    rw [recordChecks_cons, List.filterMap_cons, Check.verdict, hc, compare, ih hl]
    split_ifs <;> rfl

theorem filterMap_verdict_singleton (c : Check) :
    [c].filterMap (Check.verdict H) = (c.verdict H).toList := by
  rw [List.filterMap_cons]
  cases c.verdict H <;> rfl

/-- What is found about a stream comes of its values. -/
theorem examine_found {p : Option StreamAnchor × StreamAnchor} {e : Examination}
    (h : examine H store p = .ok e) :
    e.found = (checks p e.records).filterMap (Check.verdict H) := by
  obtain ⟨ofStream, ofAnchor, ofRecords, hs, hb, -, hr, -, parts⟩ := examine_eq_ok_iff.1 h
  have stream : ofStream = [Check.stream p.2].filterMap (Check.verdict H) := by
    rw [found_eq_of_compared hs, filterMap_verdict_singleton]
    rfl
  have anchor : ofAnchor =
      (p.1.toList.map fun q => Check.anchor q p.2).filterMap (Check.verdict H) := by
    obtain ⟨_ | q, a⟩ := p
    · cases hb
      rfl
    · rw [found_eq_of_compared hb]
      show _ = [Check.anchor q a].filterMap (Check.verdict H)
      rw [filterMap_verdict_singleton]
      rfl
  rw [parts, stream, anchor, checkRecords_found hr, checks, List.filterMap_append,
    ← List.filterMap_append, List.singleton_append]

/-! ### The report of given rows -/

variable {as : List StreamAnchor} {chain : StreamId → List Record}

/-- The values of all streams. -/
def allChecks (as : List StreamAnchor) (chain : StreamId → List Record) : List Check :=
  (behind none as).flatMap fun p => checks p (chain p.2.id)

/-- The report on these streams with these records. -/
def reportOf (H : HashFunction) (as : List StreamAnchor) (chain : StreamId → List Record) :
    AuditReport where
  streamsChecked := as.length
  recordsChecked := (as.map fun a => (chain a.id).length).sum
  violations := (allChecks as chain).filterMap (Check.verdict H)
  tips := as.map fun a => (a.descriptor.name, lastDigest a (chain a.id))

/-- All digests can be computed: the descriptors are valid, and records are of streams that were
created. -/
def Computes (as : List StreamAnchor) (chain : StreamId → List Record) : Prop :=
  ∀ a ∈ as, a.descriptor.validate = .ok () ∧ ∀ r ∈ chain a.id, 1 ≤ r.stream.number

theorem assigned_of_checkRecords {name : String} {previous : Digest} {index : Nat}
    {records : List Record} {found : List Violation}
    (h : checkRecords H name previous index records = .ok found) :
    ∀ r ∈ records, 1 ≤ r.stream.number := by
  induction records generalizing previous index found with
  | nil => exact fun r hr => absurd hr (List.not_mem_nil)
  | cons r rest ih =>
    obtain ⟨computed, hc, h⟩ := Except.bind_eq_ok_iff.1 h
    obtain ⟨later, hl, -⟩ := Except.bind_eq_ok_iff.1 h
    obtain ⟨octets, made, -⟩ := Except.map_eq_ok_iff.1 hc
    have valid := (recordPreimage_eq_ok_iff.1 made).1
    refine List.forall_mem_cons.2 ⟨?_, ih hl⟩
    by_contra unassigned
    have refused : r.link.stream.isAssigned = false := decide_eq_false unassigned
    rw [Link.validate, refused, if_neg Bool.false_ne_true] at valid
    cases valid

theorem fst_mem_of_mem_behind (h : (some q, a) ∈ behind none as) : q ∈ as := by
  obtain ⟨_, none, -⟩ | ⟨before, after, rfl⟩ := split_of_mem_behind h
  · cases none
  · simp

/-! ### Spots are distinct -/

theorem spot_of_mem_recordChecks {previous : Digest} {index : Nat} {records : List Record}
    (h : c ∈ recordChecks a previous index records) :
    ∃ j r, records[j]? = some r ∧
      c = .record a (index + j) (endDigest previous (records.take j)) r := by
  obtain ⟨j, inside, rfl⟩ := List.mem_mapIdx.1 h
  exact ⟨j, records[j], List.getElem?_eq_getElem inside, rfl⟩

theorem stream_of_mem_checks {p : Option StreamAnchor × StreamAnchor} {records : List Record}
    (h : c ∈ checks p records) : c.spot.stream = p.2.descriptor.name := by
  rcases List.mem_cons.1 h with rfl | h
  · rfl
  rcases List.mem_append.1 h with h | h
  · obtain ⟨q, -, rfl⟩ := List.mem_map.1 h
    rfl
  · obtain ⟨j, r, -, rfl⟩ := spot_of_mem_recordChecks h
    rfl

/-- The records of a stream are checked place by place. -/
theorem indices_recordChecks (a : StreamAnchor) (previous : Digest) (index : Nat)
    (records : List Record) :
    ((recordChecks a previous index records).map Check.spot).map Spot.index =
      (List.range records.length).map fun j => some (index + j) := by
  refine List.ext_getElem (by simp [recordChecks]) fun j here there => ?_
  simp [recordChecks, Check.spot]

theorem nodup_spots_of_stream (p : Option StreamAnchor × StreamAnchor) (records : List Record) :
    ((checks p records).map Check.spot).Nodup := by
  have records : ((recordChecks p.2 p.2.digest 0 records).map Check.spot).Nodup := by
    refine .of_map Spot.index ?_
    rw [indices_recordChecks]
    exact List.nodup_range.map fun i j same => by simpa using same
  have anchors : ((p.1.toList.map fun q => Check.anchor q p.2).map Check.spot).Nodup := by
    cases p.1 <;> simp
  -- the kinds tell the three parts apart
  rw [checks, List.cons_append, List.map_cons, List.map_append, List.nodup_cons, List.nodup_append]
  refine ⟨fun mem => ?_, anchors, records, fun spot here spot' there same => ?_⟩
  · rcases List.mem_append.1 mem with h | h
    · obtain ⟨c, hc, same⟩ := List.mem_map.1 h
      obtain ⟨q, -, rfl⟩ := List.mem_map.1 hc
      cases congrArg Spot.kind same
    · obtain ⟨c, hc, same⟩ := List.mem_map.1 h
      obtain ⟨j, r, -, rfl⟩ := spot_of_mem_recordChecks hc
      cases congrArg Spot.kind same
  · obtain ⟨c, hc, rfl⟩ := List.mem_map.1 here
    obtain ⟨c', hc', rfl⟩ := List.mem_map.1 there
    obtain ⟨q, -, rfl⟩ := List.mem_map.1 hc
    obtain ⟨j, r, -, rfl⟩ := spot_of_mem_recordChecks hc'
    cases congrArg Spot.kind same

/-- Under names of their own all values of all streams have spots of their own. -/
theorem nodup_spots (distinct : (as.map fun a => a.descriptor.name).Nodup)
    (chain : StreamId → List Record) : ((allChecks as chain).map Check.spot).Nodup := by
  have names : ((behind none as).map fun p => p.2.descriptor.name).Nodup := by
    have same := congrArg (List.map fun a : StreamAnchor => a.descriptor.name)
      (map_snd_behind none as)
    rw [List.map_map] at same
    rw [← same] at distinct
    exact distinct
  rw [allChecks, List.map_flatMap, List.nodup_flatMap]
  refine ⟨fun p _ => nodup_spots_of_stream p _, ?_⟩
  refine (List.pairwise_map.1 names).imp fun {p p'} ne => ?_
  refine List.disjoint_left.2 fun spot here there => ?_
  obtain ⟨c, hc, rfl⟩ := List.mem_map.1 here
  obtain ⟨c', hc', same⟩ := List.mem_map.1 there
  exact ne ((stream_of_mem_checks hc).symm.trans
    ((congrArg Spot.stream same).symm.trans (stream_of_mem_checks hc')))

/-! ### Reports spot by spot -/

section

variable {report report' : AuditReport} {cs cs' : List Check} {affected : List Spot}

/-- What a report has at the spot of a value comes of this value. -/
theorem entry_of_mem (distinct : (cs.map Check.spot).Nodup)
    (made : report.violations = cs.filterMap (Check.verdict H)) (hc : c ∈ cs) :
    report.entry c.spot = c.verdict H := by
  -- what is reported at the spot is reported for the value, since no other value is there
  have own : ∀ v ∈ report.violations, (v.spot == c.spot) = true → c.verdict H = some v := by
    intro v hv here
    rw [made] at hv
    obtain ⟨c', hc', said⟩ := List.mem_filterMap.1 hv
    have same := (Check.spot_of_verdict said).symm.trans (beq_iff_eq.1 here)
    rwa [List.inj_on_of_nodup_map distinct hc' hc same] at said
  rw [AuditReport.entry]
  cases found : report.violations.find? fun v => v.spot == c.spot with
  | some v =>
    have here := List.find?_some found
    exact (own v (List.mem_of_find?_eq_some found) here).symm
  | none =>
    cases said : c.verdict H with
    | none => rfl
    | some v =>
      have mem : v ∈ report.violations := made ▸ List.mem_filterMap.2 ⟨c, hc, said⟩
      have missed := List.find?_eq_none.1 found v mem
      rw [Check.spot_of_verdict said, beq_self_eq_true] at missed
      exact absurd rfl missed

theorem entry_of_not_mem (made : report.violations = cs.filterMap (Check.verdict H)) {spot : Spot}
    (elsewhere : spot ∉ cs.map Check.spot) : report.entry spot = none := by
  refine List.find?_eq_none.2 fun v hv here => elsewhere ?_
  rw [made] at hv
  obtain ⟨c, hc, said⟩ := List.mem_filterMap.1 hv
  rw [← beq_iff_eq.1 here, Check.spot_of_verdict said]
  exact List.mem_map_of_mem hc

/-- A report lists what it has at the spots, in their order. -/
theorem violations_eq_entries (distinct : (cs.map Check.spot).Nodup)
    (made : report.violations = cs.filterMap (Check.verdict H)) :
    report.violations = (cs.map Check.spot).filterMap report.entry := by
  rw [List.filterMap_map, made]
  exact List.filterMap_congr fun c hc => (entry_of_mem distinct made hc).symm

/-- One value instead of another one: at the same spot, and with the same verdict unless the spot is
one of these. -/
def Check.AgreesOff (H : HashFunction) (affected : List Spot) (c c' : Check) : Prop :=
  c'.spot = c.spot ∧ (c.spot ∉ affected → c'.verdict H = c.verdict H)

theorem Check.AgreesOff.refl (affected : List Spot) (c : Check) : c.AgreesOff H affected c :=
  ⟨rfl, fun _ => rfl⟩

theorem exists_agreeing (agree : List.Forall₂ (Check.AgreesOff H affected) cs cs') (hc : c ∈ cs) :
    ∃ c' ∈ cs', c.AgreesOff H affected c' := by
  induction agree with
  | nil => cases hc
  | cons first _ ih =>
    rcases List.mem_cons.1 hc with rfl | hc
    · exact ⟨_, List.mem_cons_self, first⟩
    · obtain ⟨c', mem, agrees⟩ := ih hc
      exact ⟨c', List.mem_cons_of_mem _ mem, agrees⟩

end

end Audit

/-- A report differs from another one at these spots at most: it is on as many streams and records,
it lists what it has at each spot in the same order, and it has the same at all other spots. -/
structure AuditReport.ChangesAt (report : AuditReport) (affected : List Spot)
    (report' : AuditReport) : Prop where
  streams : report'.streamsChecked = report.streamsChecked
  records : report'.recordsChecked = report.recordsChecked
  order : ∃ spots : List Spot, spots.Nodup ∧ report.violations = spots.filterMap report.entry ∧
    report'.violations = spots.filterMap report'.entry
  elsewhere : ∀ spot, spot ∉ affected → report'.entry spot = report.entry spot

namespace Audit

variable {as as' : List StreamAnchor} {chain chain' : StreamId → List Record} {affected : List Spot}

/-- Reports differ at most where the verdicts on the values do. -/
theorem changesAt_of_checks (distinct : (as.map fun a => a.descriptor.name).Nodup)
    (agree : List.Forall₂ (Check.AgreesOff H affected) (allChecks as chain) (allChecks as' chain'))
    (count : as'.length = as.length)
    (total : (as'.map fun a => (chain' a.id).length).sum =
      (as.map fun a => (chain a.id).length).sum) :
    (reportOf H as chain).ChangesAt affected (reportOf H as' chain') := by
  have spots : (allChecks as' chain').map Check.spot = (allChecks as chain).map Check.spot := by
    have same := List.forall₂_map_left_iff.2 (List.forall₂_map_right_iff.2
      (agree.imp fun c c' h => h.1.symm))
    rw [List.forall₂_eq_eq_eq] at same
    exact same.symm
  have own := nodup_spots distinct chain
  have own' : ((allChecks as' chain').map Check.spot).Nodup := by rwa [spots]
  refine ⟨count, total, ⟨_, own, violations_eq_entries own rfl, ?_⟩, fun spot unaffected => ?_⟩
  · rw [← spots]
    exact violations_eq_entries own' rfl
  · by_cases mem : spot ∈ (allChecks as chain).map Check.spot
    · obtain ⟨c, hc, rfl⟩ := List.mem_map.1 mem
      obtain ⟨c', hc', same, verdict⟩ := exists_agreeing agree hc
      have here : (reportOf H as chain).entry c.spot = c.verdict H := entry_of_mem own rfl hc
      have there : (reportOf H as' chain').entry c'.spot = c'.verdict H :=
        entry_of_mem own' rfl hc'
      rw [here, ← verdict unaffected, ← there, same]
    · have mem' : spot ∉ (allChecks as' chain').map Check.spot := by rwa [spots]
      exact (entry_of_not_mem rfl mem').trans (entry_of_not_mem rfl mem).symm

end Audit

open Audit

namespace Store

variable {as : List StreamAnchor} {chain : StreamId → List Record} {report : AuditReport}

/-- These are the streams that the store answers, and their records. -/
structure Answers (store : Store) (as : List StreamAnchor) (chain : StreamId → List Record) :
    Prop where
  anchors : store.anchors = .ok as
  chains : ∀ a ∈ as, store.chain a.id = .ok (chain a.id)

theorem AnswersAudit.exists_answers (answers : store.AnswersAudit) :
    ∃ as, store.Answers as store.chainOf := by
  obtain ⟨as, anchors, each⟩ := answers
  refine ⟨as, anchors, fun a ha => ?_⟩
  obtain ⟨records, read⟩ := each a ha
  rw [chainOf_of_chain read, read]

/-- An audit that gives a report is answered. -/
theorem answersAudit_of_audit (h : store.audit H = .ok report) : store.AnswersAudit := by
  obtain ⟨as, es, anchors, each, -⟩ := audit_eq_ok_iff.1 h
  refine ⟨as, anchors, fun a ha => ?_⟩
  obtain ⟨o, hp⟩ := exists_mem_behind none ha
  obtain ⟨e, -, made⟩ := Except.exists_of_mem_of_mapM (Except.mapM_eq_ok_iff.2 each) hp
  obtain ⟨_, _, _, -, -, hc, -⟩ := examine_eq_ok_iff.1 made
  exact ⟨e.records, hc⟩

/-- Where all digests can be computed, every stream is examined. -/
theorem exists_examine_of_computes (answers : store.Answers as chain) (computes : Computes as chain)
    {p : Option StreamAnchor × StreamAnchor} (hp : p ∈ behind none as) :
    ∃ e, examine H store p = .ok e := by
  have mem := snd_mem_of_mem_behind hp
  obtain ⟨valid, assigned⟩ := computes p.2 mem
  obtain ⟨digest, hd⟩ := exists_streamDigest (H := H) valid p.2.nonce
  obtain ⟨ofRecords, hr⟩ := checkRecords_total (H := H) p.2.descriptor.name assigned p.2.digest 0
  obtain ⟨ofAnchor, hb⟩ := exists_checkBehind (H := H) (p := p) fun q hq =>
    StreamDescriptor.validate_eq_ok_iff.1
      (computes q (fst_mem_of_mem_behind (a := p.2) (by rw [← hq]; exact hp))).1
  exact ⟨⟨p.2, chain p.2.id, _⟩, examine_eq_ok_iff.2 ⟨_, ofAnchor, ofRecords,
    Except.bind_eq_ok_iff.2 ⟨digest, hd, rfl⟩, hb, answers.chains p.2 mem, hr, rfl, rfl⟩⟩

theorem computes_of_examine {p : Option StreamAnchor × StreamAnchor} {e : Examination}
    (h : examine H store p = .ok e) :
    p.2.descriptor.validate = .ok () ∧ ∀ r ∈ e.records, 1 ≤ r.stream.number := by
  obtain ⟨_, _, _, hs, -, -, hr, -⟩ := examine_eq_ok_iff.1 h
  obtain ⟨digest, hd, -⟩ := Except.bind_eq_ok_iff.1 hs
  obtain ⟨octets, made, -⟩ := Except.map_eq_ok_iff.1 hd
  exact ⟨(streamPreimage_eq_ok_iff.1 made).1, assigned_of_checkRecords hr⟩

/-- The report that is made of examinations is that of the rows. -/
theorem extend_eq_reportOf (answers : store.Answers as chain) {es : List Examination}
    (each : List.Forall₂ (fun p e => examine H store p = .ok e) (behind none as) es) :
    AuditReport.extend {} es = reportOf H as chain := by
  have same : es.map (fun e => (e.anchor, e.records)) = as.map fun a => (a, chain a.id) := by
    rw [examined_eq each]
    exact List.map_congr_left fun a mem => by rw [chainOf_of_chain (answers.chains a mem)]
  have counts := congrArg List.length same
  have sums := congrArg (fun xs => (xs.map fun x => x.2.length).sum) same
  have ends := congrArg (List.map fun x => (x.1.descriptor.name, lastDigest x.1 x.2)) same
  simp only [List.length_map, List.map_map] at counts sums ends
  have found : es.flatMap Examination.found = (allChecks as chain).filterMap (Check.verdict H) := by
    have mem : ∀ p ∈ behind none as, store.chain p.2.id = .ok (chain p.2.id) :=
      fun p hp => answers.chains p.2 (snd_mem_of_mem_behind hp)
    rw [allChecks]
    clear counts sums ends same
    generalize behind none as = ps at each mem ⊢
    induction each with
    | nil => rfl
    | @cons p e ps es first _ ih =>
      rw [List.forall_mem_cons] at mem
      obtain ⟨_, _, _, -, -, hc, -⟩ := examine_eq_ok_iff.1 first
      rw [List.flatMap_cons, List.flatMap_cons, List.filterMap_append, ih mem.2,
        examine_found first, Except.ok.inj (mem.1.symm.trans hc)]
  rw [AuditReport.extend, reportOf, AuditReport.mk.injEq]
  exact ⟨(Nat.zero_add _).trans counts, (Nat.zero_add _).trans sums, found, ends⟩

/-- **An audit gives the report of the rows that are answered**, if all digests can be computed. -/
theorem audit_eq_ok_iff_of_answers (answers : store.Answers as chain) :
    store.audit H = .ok report ↔ Computes as chain ∧ report = reportOf H as chain := by
  constructor
  · intro h
    obtain ⟨as', es, ha, each, rfl⟩ := audit_eq_ok_iff.1 h
    obtain rfl := Except.ok.inj (ha.symm.trans answers.anchors)
    refine ⟨fun a mem => ?_, extend_eq_reportOf answers each⟩
    obtain ⟨o, hp⟩ := exists_mem_behind none mem
    obtain ⟨e, -, made⟩ := Except.exists_of_mem_of_mapM (Except.mapM_eq_ok_iff.2 each) hp
    obtain ⟨_, _, _, -, -, hc, -⟩ := examine_eq_ok_iff.1 made
    rw [Except.ok.inj ((answers.chains a mem).symm.trans hc)]
    exact computes_of_examine made
  · rintro ⟨computes, rfl⟩
    obtain ⟨es, each⟩ := Except.exists_mapM_eq_ok fun p hp =>
      exists_examine_of_computes (H := H) answers computes hp
    have each := Except.mapM_eq_ok_iff.1 each
    exact audit_eq_ok_iff.2 ⟨as, es, answers.anchors, each, (extend_eq_reportOf answers each).symm⟩

end Store

end SealedLog

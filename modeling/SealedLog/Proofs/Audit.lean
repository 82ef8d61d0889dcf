import Mathlib.Algebra.Ring.Nat
import SealedLog.Audit
import SealedLog.Proofs.Chain.Sound
import SealedLog.Proofs.Session.Call

/-!
# What audits find

An audit examines each stream on its own, together with the stream before it. What it reports is put
together from these examinations, so that a claim about a report is one about single streams.

* `Audit.behind`: each stream with the one before it;
* `Audit.Examination`, `Audit.examine`: one stream and what is found about it;
* `Store.audit_eq_ok_iff`: a report is made of the examinations of all streams;
* `Audit.Fits`: nothing is to be found about a stream;
* `Store.audit_of_sound`, `Store.anchorBreak_of_sound`: audits of sound rows.
-/

namespace SealedLog

variable {H : HashFunction} {store : Store}

namespace Audit

/-- A stream with its records and what was found about it. -/
structure Examination where
  anchor : StreamAnchor
  records : List Record
  found : List Violation

/-- Check the nonce of a stream, unless it is the first. -/
def checkBehind (H : HashFunction) :
    Option StreamAnchor × StreamAnchor → Except InputError (List Violation)
  | (none, _) => .ok []
  | (some q, a) => checkAnchor H q a

/-- Check one stream, behind the one before it. -/
def examine (H : HashFunction) (store : Store) (p : Option StreamAnchor × StreamAnchor) :
    Except SessionError Examination := do
  let name := p.2.descriptor.name
  let ofStream ← InputError.lift (checkStream H p.2)
  let ofAnchor ← InputError.lift (checkBehind H p)
  let records ← StoreError.during (.auditStream name) (store.chain p.2.id)
  let ofRecords ← InputError.lift (checkRecords H name p.2.digest 0 records)
  return ⟨p.2, records, ofStream ++ ofAnchor ++ ofRecords⟩

/-- Each stream with the one before it. -/
def behind : Option StreamAnchor → List StreamAnchor → List (Option StreamAnchor × StreamAnchor)
  | _, [] => []
  | previous, a :: rest => (previous, a) :: behind (some a) rest

end Audit

open Audit

/-- The report with what was found about more streams. -/
def AuditReport.extend (report : AuditReport) (es : List Examination) : AuditReport where
  streamsChecked := report.streamsChecked + es.length
  recordsChecked := report.recordsChecked + (es.map fun e => e.records.length).sum
  violations := report.violations ++ es.flatMap Examination.found
  tips := report.tips ++ es.map fun e => (e.anchor.descriptor.name, lastDigest e.anchor e.records)

namespace Audit

variable {p : Option StreamAnchor × StreamAnchor} {a q : StreamAnchor} {as : List StreamAnchor}

/-! ### Streams one by one -/

theorem checkFrom_cons (report : AuditReport) (previous : Option StreamAnchor) (a : StreamAnchor)
    (rest : List StreamAnchor) :
    checkFrom H store report previous (a :: rest) =
      (examine H store (previous, a)).bind fun e =>
        checkFrom H store (report.extend [e]) (some a) rest := by
  -- one step of the audit with the check of the nonce by its name
  have step : checkFrom H store report previous (a :: rest) = (do
      let ofStream ← InputError.lift (checkStream H a)
      let ofAnchor ← InputError.lift (checkBehind H (previous, a))
      let records ← StoreError.during (.auditStream a.descriptor.name) (store.chain a.id)
      let ofRecords ← InputError.lift (checkRecords H a.descriptor.name a.digest 0 records)
      checkFrom H store (report.extend [⟨a, records, ofStream ++ ofAnchor ++ ofRecords⟩])
        (some a) rest) := by
    rw [checkFrom]
    simp only [AuditReport.extend, List.map_cons, List.map_nil, List.sum_cons, List.sum_nil,
      List.flatMap_cons, List.flatMap_nil, List.append_nil, List.append_assoc, Nat.add_zero,
      List.length_cons, List.length_nil, Nat.zero_add]
    cases previous with
    | none => rfl
    | some q => rfl
  rw [step]
  show _ = (examine H store (previous, a) >>= _)
  simp only [examine, bind_assoc, pure_bind]

theorem extend_extend (report : AuditReport) (e : Examination) (es : List Examination) :
    (report.extend [e]).extend es = report.extend (e :: es) := by
  simp [AuditReport.extend, Nat.add_assoc, Nat.add_comm 1]

/-- What a report adds is made of the examinations of the streams. -/
theorem checkFrom_eq (report : AuditReport) (previous : Option StreamAnchor)
    (as : List StreamAnchor) :
    checkFrom H store report previous as =
      ((behind previous as).mapM (examine H store)).map report.extend := by
  induction as generalizing report previous with
  | nil =>
    rw [behind, List.mapM_nil]
    simp [checkFrom, Except.map, pure, Except.pure, AuditReport.extend]
  | cons a rest ih =>
    rw [checkFrom_cons, behind, List.mapM_cons]
    cases examine H store (previous, a) with
    | error e => rfl
    | ok e =>
      show checkFrom H store (report.extend [e]) (some a) rest = _
      rw [ih]
      cases (behind (some a) rest).mapM (examine H store) with
      | error _ => rfl
      | ok es => exact congrArg Except.ok (extend_extend report e es)

theorem examine_eq_ok_iff {e : Examination} :
    examine H store p = .ok e ↔
      ∃ ofStream ofAnchor ofRecords, checkStream H p.2 = .ok ofStream ∧
        checkBehind H p = .ok ofAnchor ∧ store.chain p.2.id = .ok e.records ∧
        checkRecords H p.2.descriptor.name p.2.digest 0 e.records = .ok ofRecords ∧
        e.anchor = p.2 ∧ e.found = ofStream ++ ofAnchor ++ ofRecords := by
  simp only [examine, Except.bind_eq_ok_iff, InputError.lift_eq_ok_iff, StoreError.during_eq_ok_iff]
  constructor
  · rintro ⟨ofStream, hs, ofAnchor, ha, records, hc, ofRecords, hr, h⟩
    cases h
    exact ⟨ofStream, ofAnchor, ofRecords, hs, ha, hc, hr, rfl, rfl⟩
  · rintro ⟨ofStream, ofAnchor, ofRecords, hs, ha, hc, hr, same, found⟩
    refine ⟨ofStream, hs, ofAnchor, ha, e.records, hc, ofRecords, hr, ?_⟩
    rw [← same, ← found]
    rfl

/-! ### Nothing to be found -/

/-- A stored value is reported exactly when another one is computed. -/
theorem compared_eq_nil_iff {α : Type} [DecidableEq α] {x : Except InputError α} {stored : α}
    {difference : α → Violation} :
    (do let computed ← x; return if computed = stored then [] else [difference computed]) =
      .ok [] ↔ x = .ok stored := by
  rw [Except.bind_eq_ok_iff]
  constructor
  · rintro ⟨computed, hc, h⟩
    have none := Except.ok.inj h
    split_ifs at none with same
    rw [hc, same]
  · intro h
    exact ⟨stored, h, congrArg Except.ok (if_pos rfl)⟩

theorem checkStream_eq_nil_iff :
    checkStream H a = .ok [] ↔ streamDigest H a.nonce a.descriptor = .ok a.digest :=
  compared_eq_nil_iff

theorem checkAnchor_eq_nil_iff :
    checkAnchor H q a = .ok [] ↔ nextNonce H q.digest q.descriptor = .ok a.nonce :=
  compared_eq_nil_iff

theorem break_of_mem_checkAnchor {found : List Violation} {v : Violation}
    (h : checkAnchor H q a = .ok found) (hv : v ∈ found) :
    v.kind = .anchorBreak ∧ v.stream = a.descriptor.name ∧
      nextNonce H q.digest q.descriptor ≠ .ok a.nonce := by
  obtain ⟨computed, hc, h⟩ := Except.bind_eq_ok_iff.1 h
  obtain rfl := Except.ok.inj h
  split_ifs at hv with same
  · cases hv
  · obtain rfl := List.mem_singleton.1 hv
    refine ⟨rfl, rfl, fun follows => same ?_⟩
    exact Except.ok.inj (hc.symm.trans follows)

/-- The records of a stream are in order exactly when they form a chain. -/
theorem checkRecords_eq_nil_iff {name : String} {previous : Digest} {index : Nat}
    {records : List Record} :
    checkRecords H name previous index records = .ok [] ↔ Replays H previous records := by
  induction records generalizing previous index with
  | nil =>
    constructor
    · intro _
      exact replays_nil H previous
    · intro _
      rfl
  | cons r rest ih =>
    -- the rest is checked behind the stored digest, which is the computed one if nothing is found
    rw [replays_cons_iff, checkRecords, Except.bind_eq_ok_iff]
    constructor
    · rintro ⟨computed, hc, h⟩
      obtain ⟨found, hf, h⟩ := Except.bind_eq_ok_iff.1 h
      have none := Except.ok.inj h
      split_ifs at none with same
      rw [none] at hf
      exact ⟨same ▸ hc, ih.1 hf⟩
    · rintro ⟨hc, chain⟩
      exact ⟨r.digest, hc,
        Except.bind_eq_ok_iff.2 ⟨[], ih.2 chain, congrArg Except.ok (if_pos rfl)⟩⟩

/-- The digest of a stream, its nonce and the digests of its records are the computed ones. -/
structure Fits (H : HashFunction) (p : Option StreamAnchor × StreamAnchor) (records : List Record) :
    Prop where
  digest : streamDigest H p.2.nonce p.2.descriptor = .ok p.2.digest
  nonce : ∀ q, p.1 = some q → nextNonce H q.digest q.descriptor = .ok p.2.nonce
  chain : Replays H p.2.digest records

theorem checkBehind_eq_nil_iff :
    checkBehind H p = .ok [] ↔
      ∀ q, p.1 = some q → nextNonce H q.digest q.descriptor = .ok p.2.nonce := by
  obtain ⟨_ | q, a⟩ := p
  · constructor
    · intro _ _ h
      cases h
    · intro _
      rfl
  · constructor
    · rintro h _ ⟨⟩
      exact checkAnchor_eq_nil_iff.1 h
    · intro h
      exact checkAnchor_eq_nil_iff.2 (h q rfl)

/-- Nothing is found about a stream exactly when everything fits. -/
theorem examine_eq_clean_iff {records : List Record} :
    examine H store p = .ok ⟨p.2, records, []⟩ ↔
      store.chain p.2.id = .ok records ∧ Fits H p records := by
  rw [examine_eq_ok_iff]
  constructor
  · rintro ⟨ofStream, ofAnchor, ofRecords, hs, ha, hc, hr, -, found⟩
    obtain ⟨none, rfl⟩ := List.append_eq_nil_iff.1 found.symm
    obtain ⟨rfl, rfl⟩ := List.append_eq_nil_iff.1 none
    exact ⟨hc, checkStream_eq_nil_iff.1 hs, checkBehind_eq_nil_iff.1 ha,
      checkRecords_eq_nil_iff.1 hr⟩
  · rintro ⟨hc, fits⟩
    exact ⟨[], [], [], checkStream_eq_nil_iff.2 fits.digest, checkBehind_eq_nil_iff.2 fits.nonce,
      hc, checkRecords_eq_nil_iff.2 fits.chain, rfl, rfl⟩

/-- Where nothing is found, the examinations are those of streams that fit. -/
theorem fits_of_clean {ps : List (Option StreamAnchor × StreamAnchor)} {es : List Examination}
    {chain : StreamId → List Record}
    (each : List.Forall₂ (fun p e => examine H store p = .ok e) ps es)
    (clean : ∀ e ∈ es, e.found = [])
    (answered : ∀ id records, store.chain id = .ok records → chain id = records) :
    (∀ p ∈ ps, store.chain p.2.id = .ok (chain p.2.id) ∧ Fits H p (chain p.2.id)) ∧
      es = ps.map fun p => ⟨p.2, chain p.2.id, []⟩ := by
  induction each with
  | nil => exact ⟨fun _ h => (nomatch h), rfl⟩
  | @cons p e ps es first _ ih =>
    -- the first examination is clean, and what was answered to it is what `chain` gives
    obtain ⟨fits, rfl⟩ := ih fun e he => clean e (List.mem_cons_of_mem _ he)
    obtain ⟨a, records, found⟩ := e
    obtain rfl : found = [] := clean _ List.mem_cons_self
    obtain ⟨_, _, _, -, -, hc, -, same, -⟩ := examine_eq_ok_iff.1 first
    obtain rfl : a = p.2 := same
    obtain rfl := answered _ _ hc
    refine ⟨fun q hq => ?_, rfl⟩
    rcases List.mem_cons.1 hq with rfl | hq
    · exact examine_eq_clean_iff.1 first
    · exact fits q hq

/-! ### Streams and the ones before them -/

@[simp] theorem map_snd_behind (previous : Option StreamAnchor) (as : List StreamAnchor) :
    (behind previous as).map Prod.snd = as := by
  induction as generalizing previous with
  | nil => rfl
  | cons a rest ih => rw [behind, List.map_cons, ih]

theorem snd_mem_of_mem_behind (h : p ∈ behind none as) : p.2 ∈ as := by
  have mem := List.mem_map_of_mem (f := Prod.snd) h
  rwa [map_snd_behind] at mem

theorem behind_concat (previous : Option StreamAnchor) (as : List StreamAnchor) (a : StreamAnchor) :
    behind previous (as ++ [a]) = behind previous as ++ [(as.getLast?.or previous, a)] := by
  induction as generalizing previous with
  | nil => rfl
  | cons b rest ih =>
    rw [List.cons_append, behind, ih, behind, List.getLast?_cons]
    cases rest.getLast? <;> rfl

theorem split_of_mem_behind {previous : Option StreamAnchor}
    (h : (some q, a) ∈ behind previous as) :
    (∃ after, previous = some q ∧ as = a :: after) ∨
      ∃ before after, as = before ++ q :: a :: after := by
  induction as generalizing previous with
  | nil => cases h
  | cons b rest ih =>
    -- the pair is in front, or it is one of the streams behind `b`
    rcases List.mem_cons.1 h with first | later
    · obtain ⟨rfl, rfl⟩ := Prod.mk.inj first
      exact .inl ⟨rest, rfl, rfl⟩
    · obtain ⟨after, same, rfl⟩ | ⟨before, after, rfl⟩ := ih later
      · cases same
        exact .inr ⟨[], after, rfl⟩
      · exact .inr ⟨b :: before, after, rfl⟩

/-- Threaded streams follow the ones before them. -/
theorem nonce_of_threads {root nonce : Nonce} (h : Threads H root as nonce)
    (mem : (some q, a) ∈ behind none as) : nextNonce H q.digest q.descriptor = .ok a.nonce := by
  induction h with
  | none => cases mem
  | @more before b next anchored follows ih =>
    rw [behind_concat, Option.or_none] at mem
    rcases List.mem_append.1 mem with old | new
    · exact ih old
    · obtain ⟨last, rfl⟩ := Prod.mk.inj (List.mem_singleton.1 new)
      exact anchored.next_of_getLast? last.symm

end Audit

/-! ### Reports -/

/-- The report on streams about which nothing is found. -/
def AuditReport.ofStreams (as : List StreamAnchor) (chain : StreamId → List Record) : AuditReport :=
  AuditReport.extend {} (as.map fun a => ⟨a, chain a.id, []⟩)

namespace AuditReport

variable {as : List StreamAnchor} {chain : StreamId → List Record} {name : String}

theorem isClean_extend_iff {es : List Examination} :
    (extend {} es).isClean = true ↔ ∀ e ∈ es, e.found = [] := by
  rw [isClean, List.isEmpty_iff]
  exact List.flatMap_eq_nil_iff

theorem isClean_ofStreams (as : List StreamAnchor) (chain : StreamId → List Record) :
    (ofStreams as chain).isClean = true :=
  isClean_extend_iff.2 fun e he => by
    obtain ⟨a, -, rfl⟩ := List.mem_map.1 he
    rfl

theorem extend_behind (as : List StreamAnchor) (chain : StreamId → List Record) :
    extend {} ((behind none as).map fun p => ⟨p.2, chain p.2.id, []⟩) = ofStreams as chain := by
  have streams := congrArg
    (List.map fun a : StreamAnchor => (⟨a, chain a.id, []⟩ : Examination)) (map_snd_behind none as)
  rw [List.map_map] at streams
  exact congrArg (extend {}) streams

/-- The tip under a name is the last digest of the last stream of that name. -/
theorem tip_ofStreams (as : List StreamAnchor) (chain : StreamId → List Record) (name : String) :
    (ofStreams as chain).tip name =
      (as.reverse.find? fun a => a.descriptor.name == name).map
        fun a => lastDigest a (chain a.id) := by
  have tips : (ofStreams as chain).tips =
      as.map fun a => (a.descriptor.name, lastDigest a (chain a.id)) := by
    simp [ofStreams, extend]
  rw [tip, tips, ← List.map_reverse]
  induction as.reverse with
  | nil => rfl
  | cons a rest ih =>
    rw [List.map_cons, List.lookup_cons, List.find?_cons, ih, BEq.comm]
    split <;> rfl

theorem tip_ofStreams_of_mem (distinct : (as.map fun a => a.descriptor.name).Nodup)
    {a : StreamAnchor} (ha : a ∈ as) :
    (ofStreams as chain).tip a.descriptor.name = some (lastDigest a (chain a.id)) := by
  rw [tip_ofStreams]
  cases h : as.reverse.find? fun b => b.descriptor.name == a.descriptor.name with
  | none => exact absurd (List.find?_eq_none.1 h a (List.mem_reverse.2 ha)) (by simp)
  | some b =>
    have name := List.find?_some h
    have mem := List.mem_reverse.1 (List.mem_of_find?_eq_some h)
    rw [List.inj_on_of_nodup_map distinct mem ha (by simpa using name)]
    rfl

theorem tip_ofStreams_eq_none (unused : ∀ a ∈ as, a.descriptor.name ≠ name) :
    (ofStreams as chain).tip name = none := by
  rw [tip_ofStreams, Option.map_eq_none_iff, List.find?_eq_none]
  intro a ha same
  exact unused a (List.mem_reverse.1 ha) (by simpa using same)

end AuditReport

namespace Store

variable {rows : Rows} {report : AuditReport}

/-- A report is made of the examinations of all streams. -/
theorem audit_eq_ok_iff :
    store.audit H = .ok report ↔
      ∃ as es, store.anchors = .ok as ∧
        List.Forall₂ (fun p e => examine H store p = .ok e) (behind none as) es ∧
        report = AuditReport.extend {} es := by
  simp only [audit, Except.bind_eq_ok_iff, StoreError.during_eq_ok_iff, checkFrom_eq,
    Except.map_eq_ok_iff, Except.mapM_eq_ok_iff]
  constructor
  · rintro ⟨as, ha, es, each, rfl⟩
    exact ⟨as, es, ha, each, rfl⟩
  · rintro ⟨as, es, ha, each, rfl⟩
    exact ⟨as, ha, es, each, rfl⟩

/-- **A report is clean exactly when every stream fits**: its digest, its nonce and its records. -/
theorem audit_clean_iff :
    store.audit H = .ok report ∧ report.isClean = true ↔
      ∃ as chain, store.anchors = .ok as ∧
        (∀ p ∈ behind none as, store.chain p.2.id = .ok (chain p.2.id) ∧
          Fits H p (chain p.2.id)) ∧
        report = AuditReport.ofStreams as chain := by
  constructor
  · rintro ⟨h, clean⟩
    obtain ⟨as, es, ha, each, rfl⟩ := audit_eq_ok_iff.1 h
    -- what was answered for each number, whether or not a stream has it
    let chain : StreamId → List Record := fun id => (store.chain id).toOption.getD []
    have answered : ∀ id records, store.chain id = .ok records → chain id = records :=
      fun id records h => by
        show (store.chain id).toOption.getD [] = records
        rw [h]
        rfl
    obtain ⟨fits, rfl⟩ :=
      fits_of_clean each (AuditReport.isClean_extend_iff.1 clean) answered
    exact ⟨as, chain, ha, fits, AuditReport.extend_behind as chain⟩
  · rintro ⟨as, chain, ha, fits, rfl⟩
    refine ⟨audit_eq_ok_iff.2 ⟨as, _, ha, ?_, (AuditReport.extend_behind as chain).symm⟩,
      AuditReport.isClean_ofStreams as chain⟩
    rw [List.forall₂_map_right_iff]
    exact List.forall₂_same.2 fun p hp => examine_eq_clean_iff.2 (fits p hp)

/-! ### Audits of sound rows -/

/-- The queries of an audit are answered. -/
def AnswersAudit (store : Store) : Prop :=
  ∃ as, store.anchors = .ok as ∧ ∀ a ∈ as, ∃ records, store.chain a.id = .ok records

/-- The audit of sound rows that are threaded finds nothing. -/
theorem audit_of_sound {root nonce : Nonce} (holds : store.Holds rows) (sound : rows.Sound H)
    (threads : Threads H root rows.anchors nonce) (answers : store.AnswersAudit) :
    store.audit H = .ok (.ofStreams rows.anchors rows.chain) := by
  obtain ⟨as, ha, each⟩ := answers
  obtain rfl := anchors_of_holds holds ha
  -- it is clean because every stream fits: soundness gives the digests, the thread the nonces
  refine (audit_clean_iff.2 ⟨_, rows.chain, ha, fun p hp => ?_, rfl⟩).1
  have mem := snd_mem_of_mem_behind hp
  obtain ⟨records, hc⟩ := each p.2 mem
  obtain rfl := chain_of_holds holds hc
  refine ⟨hc, sound.digests p.2 mem, fun q hq => ?_, sound.chains p.2 mem⟩
  obtain ⟨previous, a⟩ := p
  obtain rfl : previous = some q := hq
  exact nonce_of_threads threads hp

/-- The tip of a stream of sound rows is the end of its chain. -/
theorem tip_of_sound (sound : rows.Sound H) {a : StreamAnchor} (ha : a ∈ rows.anchors) :
    (AuditReport.ofStreams rows.anchors rows.chain).tip a.descriptor.name =
      some (endDigest a.digest (rows.chain a.id)) :=
  AuditReport.tip_ofStreams_of_mem sound.distinct ha

/-- **In sound rows nothing but breaks between streams is found**, and these where a stream does not
follow the one before it. -/
theorem anchorBreak_of_sound {report : AuditReport} (holds : store.Holds rows)
    (sound : rows.Sound H) (h : store.audit H = .ok report) {v : Violation}
    (hv : v ∈ report.violations) :
    v.kind = .anchorBreak ∧
      ∃ before q a after, rows.anchors = before ++ q :: a :: after ∧
        v.stream = a.descriptor.name ∧ nextNonce H q.digest q.descriptor ≠ .ok a.nonce := by
  obtain ⟨as, es, ha, each, rfl⟩ := audit_eq_ok_iff.1 h
  obtain rfl := anchors_of_holds holds ha
  obtain ⟨e, he, found⟩ := List.mem_flatMap.1 hv
  obtain ⟨p, hp, made⟩ := Except.exists_of_mem_mapM (Except.mapM_eq_ok_iff.2 each) he
  obtain ⟨ofStream, ofAnchor, ofRecords, hs, hb, hc, hr, -, parts⟩ := examine_eq_ok_iff.1 made
  have mem := snd_mem_of_mem_behind hp
  -- the stream and its records are as computed, so that only its nonce is left
  have noStream : ofStream = [] :=
    Except.ok.inj (hs.symm.trans (checkStream_eq_nil_iff.2 (sound.digests p.2 mem)))
  have noRecords : ofRecords = [] := by
    rw [chain_of_holds holds hc] at hr
    exact Except.ok.inj (hr.symm.trans (checkRecords_eq_nil_iff.2 (sound.chains p.2 mem)))
  rw [parts, noStream, noRecords, List.nil_append, List.append_nil] at found
  obtain ⟨_ | q, a⟩ := p
  · cases hb
    cases found
  · obtain ⟨kind, stream, differs⟩ := break_of_mem_checkAnchor hb found
    obtain ⟨_, none, -⟩ | ⟨before, after, split⟩ := split_of_mem_behind hp
    · cases none
    · exact ⟨kind, before, q, a, after, split, stream, differs⟩

end Store

end SealedLog

import SealedLog.Proofs.Audit
import SealedLog.Proofs.Chain.Preimage

/-!
# What audits answer

An audit fails when the streams cannot be read, or at the first stream that has an invalid
descriptor or unreadable records. Otherwise it reports exactly the stored values that differ from
the ones computed from the stored values before them, in the order of the rows. So nothing is
reported exactly when every chain is the one that replaying its records gives.

* `StreamDescriptor.IsValid`: the fields are texts that are not empty and have no NUL;
* `Audit.Check`: a stored value with the stored values before it; `Audit.checks`: those of a stream;
* `Store.Blocks`: why an audit stops at a stream; `Store.Stops`: why it stops among streams;
* `Store.audit_eq_error_iff`, `Audit.Exact`, `Store.exact_of_audit`: failures and reports;
* `Store.audit_answers`: both together, for every store.
-/

namespace SealedLog

variable {H : HashFunction} {store : Store}

/-! ### Valid descriptors -/

/-- The fields are texts that are not empty and have no NUL. -/
def StreamDescriptor.IsValid (d : StreamDescriptor) : Prop :=
  ∀ text ∈ [d.name, d.typeName, d.format], text ≠ "" ∧ Char.ofNat 0 ∉ text.toList

theorem Field.check_eq_ok_iff {field : Field} {text : String} :
    field.check text = .ok () ↔ text ≠ "" ∧ Char.ofNat 0 ∉ text.toList := by
  unfold Field.check
  rw [Ne, ← String.toList_eq_nil_iff]
  split_ifs with empty nul
  · simp [empty]
  · simp [nul]
  · simp [empty, nul]

namespace StreamDescriptor

theorem validate_eq_ok_iff {d : StreamDescriptor} : d.validate = .ok () ↔ d.IsValid := by
  have step : d.validate = .ok () ↔ Field.name.check d.name = .ok () ∧
      Field.type.check d.typeName = .ok () ∧ Field.format.check d.format = .ok () := by
    unfold validate
    cases Field.name.check d.name with
    | error e => simp [bind, Except.bind]
    | ok _ =>
      cases Field.type.check d.typeName with
      | error e => simp [bind, Except.bind]
      | ok _ => simp [bind, Except.bind]
  rw [step, Field.check_eq_ok_iff, Field.check_eq_ok_iff, Field.check_eq_ok_iff]
  simp [IsValid]

end StreamDescriptor

namespace Audit

variable {p : Option StreamAnchor × StreamAnchor} {a q : StreamAnchor} {as : List StreamAnchor}

/-! ### Digests that can be computed -/

theorem exists_streamDigest {d : StreamDescriptor} (valid : d.validate = .ok ()) (nonce : Nonce) :
    ∃ digest, streamDigest H nonce d = .ok digest :=
  ⟨_, Except.map_eq_ok_iff.2 ⟨_, streamPreimage_eq_ok_iff.2 ⟨valid, rfl⟩, rfl⟩⟩

theorem exists_nextNonce {d : StreamDescriptor} (valid : d.validate = .ok ()) (digest : Digest) :
    ∃ nonce, nextNonce H digest d = .ok nonce :=
  ⟨_, Except.map_eq_ok_iff.2 ⟨_, anchorPreimage_eq_ok_iff.2 ⟨valid, rfl⟩, rfl⟩⟩

theorem exists_recordDigest {l : Link} (assigned : 1 ≤ l.stream.number) (previous : Digest) :
    ∃ digest, recordDigest H previous l = .ok digest := by
  have valid : l.validate = .ok () := if_pos (decide_eq_true assigned)
  exact ⟨_, Except.map_eq_ok_iff.2 ⟨_, recordPreimage_eq_ok_iff.2 ⟨valid, rfl⟩, rfl⟩⟩

/-! ### Where an audit stops -/

end Audit

namespace Store

/-- The descriptor of a stream is valid and its records can be read. -/
def IsReadable (store : Store) (a : StreamAnchor) : Prop :=
  a.descriptor.IsValid ∧ ∃ records, store.chain a.id = .ok records

/-- Why an audit stops at a stream. -/
inductive Blocks (store : Store) (a : StreamAnchor) : SessionError → Prop
  | invalid {e : InputError} (h : a.descriptor.validate = .error e) :
      Blocks store a (.invalidInput e)
  | unread {e : StoreError} (valid : a.descriptor.IsValid) (h : store.chain a.id = .error e) :
      Blocks store a (.backend (.auditStream a.descriptor.name) e)

theorem Blocks.not_isReadable {a : StreamAnchor} {e : SessionError} (blocks : store.Blocks a e) :
    ¬store.IsReadable a := by
  rintro ⟨valid, records, read⟩
  cases blocks with
  | invalid h =>
    exact absurd ((StreamDescriptor.validate_eq_ok_iff.2 valid).symm.trans h) (nomatch ·)
  | unread _ h => exact absurd (read.symm.trans h) (nomatch ·)

theorem Blocks.unique {a : StreamAnchor} {e e' : SessionError} (blocks : store.Blocks a e)
    (other : store.Blocks a e') : e = e' := by
  cases blocks with
  | invalid h =>
    cases other with
    | invalid h' => rw [Except.error.inj (h.symm.trans h')]
    | unread valid _ =>
      exact absurd ((StreamDescriptor.validate_eq_ok_iff.2 valid).symm.trans h) (nomatch ·)
  | unread valid h =>
    cases other with
    | invalid h' =>
      exact absurd ((StreamDescriptor.validate_eq_ok_iff.2 valid).symm.trans h') (nomatch ·)
    | unread _ h' => rw [Except.error.inj (h.symm.trans h')]

/-- An audit of these streams stops at the first one that is not readable. -/
def Stops (store : Store) (as : List StreamAnchor) (e : SessionError) : Prop :=
  ∃ front a back, as = front ++ a :: back ∧ (∀ b ∈ front, store.IsReadable b) ∧ store.Blocks a e

variable {b : StreamAnchor} {rest : List StreamAnchor} {e e' : SessionError}

theorem not_stops_nil : ¬store.Stops [] e := by
  rintro ⟨front, a, back, h, -⟩
  exact absurd h.symm (List.append_ne_nil_of_right_ne_nil front (List.cons_ne_nil a back))

theorem stops_cons_of_readable (readable : store.IsReadable b) :
    store.Stops (b :: rest) e ↔ store.Stops rest e := by
  constructor
  · rintro ⟨front, a, back, split, fine, blocks⟩
    cases front with
    | nil =>
      obtain ⟨rfl, rfl⟩ := List.cons.inj split
      exact absurd readable blocks.not_isReadable
    | cons c front =>
      obtain ⟨rfl, rfl⟩ := List.cons.inj split
      exact ⟨front, a, back, rfl, fun d hd => fine d (List.mem_cons_of_mem _ hd), blocks⟩
  · rintro ⟨front, a, back, rfl, fine, blocks⟩
    exact ⟨b :: front, a, back, rfl, List.forall_mem_cons.2 ⟨readable, fine⟩, blocks⟩

theorem stops_cons_of_blocks (blocks : store.Blocks b e') : store.Stops (b :: rest) e ↔ e' = e := by
  constructor
  · rintro ⟨front, a, back, split, fine, other⟩
    cases front with
    | nil =>
      obtain ⟨rfl, rfl⟩ := List.cons.inj split
      exact blocks.unique other
    | cons c front =>
      obtain ⟨rfl, rfl⟩ := List.cons.inj split
      exact absurd (fine b List.mem_cons_self) blocks.not_isReadable
  · rintro rfl
    exact ⟨[], b, rest, rfl, fun _ h => (nomatch h), blocks⟩

end Store

namespace Audit

open Store

theorem checkRecords_total (name : String) {records : List Record}
    (assigned : ∀ r ∈ records, 1 ≤ r.stream.number) (previous : Digest) (index : Nat) :
    ∃ found, checkRecords H name previous index records = .ok found := by
  induction records generalizing previous index with
  | nil => exact ⟨[], rfl⟩
  | cons r rest ih =>
    obtain ⟨computed, hc⟩ := exists_recordDigest (H := H) (l := r.link)
      (assigned r List.mem_cons_self) previous
    have later : ∀ s ∈ rest, 1 ≤ s.stream.number := fun s hs =>
      assigned s (List.mem_cons_of_mem _ hs)
    obtain ⟨found, hf⟩ := ih later r.digest (index + 1)
    exact ⟨_, Except.bind_eq_ok_iff.2 ⟨computed, hc, Except.bind_eq_ok_iff.2 ⟨found, hf, rfl⟩⟩⟩

theorem exists_checkBehind (before : ∀ q, p.1 = some q → q.descriptor.IsValid) :
    ∃ found, checkBehind H p = .ok found := by
  obtain ⟨_ | q, a⟩ := p
  · exact ⟨[], rfl⟩
  · obtain ⟨nonce, hn⟩ := exists_nextNonce (H := H)
      (StreamDescriptor.validate_eq_ok_iff.2 (before q rfl)) q.digest
    exact ⟨_, Except.bind_eq_ok_iff.2 ⟨nonce, hn, rfl⟩⟩

/-- A readable stream is examined, behind one whose descriptor is valid. -/
theorem exists_examine (assigned : 1 ≤ p.2.id.number)
    (before : ∀ q, p.1 = some q → q.descriptor.IsValid) (readable : store.IsReadable p.2) :
    ∃ e, examine H store p = .ok e := by
  obtain ⟨valid, records, hc⟩ := readable
  rw [← StreamDescriptor.validate_eq_ok_iff] at valid
  have owned : ∀ r ∈ records, 1 ≤ r.stream.number := fun r hr => by
    rw [stream_of_mem_chain hc hr]
    exact assigned
  obtain ⟨digest, hd⟩ := exists_streamDigest (H := H) valid p.2.nonce
  obtain ⟨ofRecords, hr⟩ := checkRecords_total (H := H) p.2.descriptor.name owned p.2.digest 0
  obtain ⟨ofAnchor, hb⟩ := exists_checkBehind (H := H) before
  exact ⟨⟨p.2, records, _⟩, examine_eq_ok_iff.2 ⟨_, ofAnchor, ofRecords,
    Except.bind_eq_ok_iff.2 ⟨digest, hd, rfl⟩, hb, hc, hr, rfl, rfl⟩⟩

theorem examine_of_blocks (before : ∀ q, p.1 = some q → q.descriptor.IsValid) {e : SessionError}
    (blocks : store.Blocks p.2 e) : examine H store p = .error e := by
  cases blocks with
  | @invalid e invalid =>
    have noDigest : streamDigest H p.2.nonce p.2.descriptor = .error e := by
      rw [streamDigest, streamPreimage, invalid]
      rfl
    have noCheck : checkStream H p.2 = .error e := by
      rw [checkStream, noDigest]
      rfl
    rw [examine, noCheck]
    rfl
  | unread valid unread =>
    obtain ⟨digest, hd⟩ := exists_streamDigest (H := H)
      (StreamDescriptor.validate_eq_ok_iff.2 valid) p.2.nonce
    obtain ⟨ofAnchor, hb⟩ := exists_checkBehind (H := H) before
    rw [examine, checkStream, hd, hb, unread]
    rfl

/-- A stream is readable, or something blocks an audit at it. -/
theorem isReadable_or_blocks (store : Store) (a : StreamAnchor) :
    store.IsReadable a ∨ ∃ e, store.Blocks a e := by
  cases hv : a.descriptor.validate with
  | error e => exact .inr ⟨_, .invalid hv⟩
  | ok _ =>
    have valid := StreamDescriptor.validate_eq_ok_iff.1 hv
    cases hc : store.chain a.id with
    | error e => exact .inr ⟨_, .unread valid hc⟩
    | ok records => exact .inl ⟨valid, records, hc⟩

/-- An audit gets through the streams, or the first one that blocks it decides. -/
theorem examine_all_eq_error_iff {previous : Option StreamAnchor}
    (before : ∀ q, previous = some q → q.descriptor.IsValid)
    (assigned : ∀ a ∈ as, 1 ≤ a.id.number) {e : SessionError} :
    (behind previous as).mapM (examine H store) = .error e ↔ store.Stops as e := by
  induction as generalizing previous with
  | nil => exact iff_of_false (fun h => nomatch h) not_stops_nil
  | cons b rest ih =>
    have first := assigned b List.mem_cons_self
    rw [behind, List.mapM_cons]
    rcases isReadable_or_blocks store b with readable | ⟨e', blocks⟩
    · obtain ⟨x, hx⟩ := exists_examine (H := H) (p := (previous, b)) first before readable
      have behindB : ∀ q, some b = some q → q.descriptor.IsValid := by
        rintro q ⟨⟩
        exact readable.1
      have rest_iff := ih behindB fun c hc => assigned c (List.mem_cons_of_mem _ hc)
      rw [hx, stops_cons_of_readable readable, ← rest_iff]
      exact Except.bind_pure_eq_error_iff
    · rw [examine_of_blocks (p := (previous, b)) before blocks, stops_cons_of_blocks blocks]
      exact ⟨Except.error.inj, congrArg _⟩

/-! ### What is reported -/

/-- A stored value, with the stored values that another one for it is computed from. -/
inductive Check
  /-- The digest of a stream. -/
  | stream (a : StreamAnchor)
  /-- The nonce of a stream behind another one. -/
  | anchor (q a : StreamAnchor)
  /-- The digest of the record at this place of a stream, behind a digest. -/
  | record (a : StreamAnchor) (index : Nat) (previous : Digest) (r : Record)

namespace Check

/-- Whether the stored value differs from the computed one. -/
def differs (H : HashFunction) : Check → Bool
  | .stream a => decide (streamDigest H a.nonce a.descriptor ≠ .ok a.digest)
  | .anchor q a => decide (nextNonce H q.digest q.descriptor ≠ .ok a.nonce)
  | .record _ _ previous r => decide (recordDigest H previous r.link ≠ .ok r.digest)

/-- How a stored value that differs is reported. -/
inductive IsReportedBy (H : HashFunction) : Check → Violation → Prop
  | stream {a : StreamAnchor} {computed : Digest}
      (h : streamDigest H a.nonce a.descriptor = .ok computed) :
      IsReportedBy H (.stream a)
        ⟨.streamDigestMismatch, a.descriptor.name, none, difference a.digest computed⟩
  | anchor {q a : StreamAnchor} :
      IsReportedBy H (.anchor q a) ⟨.anchorBreak, a.descriptor.name, none,
        "nonce does not follow from stream '" ++ q.descriptor.name ++ "'"⟩
  | record {a : StreamAnchor} {index : Nat} {previous : Digest} {r : Record} {computed : Digest}
      (h : recordDigest H previous r.link = .ok computed) :
      IsReportedBy H (.record a index previous r)
        ⟨.recordDigestMismatch, a.descriptor.name, some index, difference r.digest computed⟩

end Check

/-- Each record of a stream from a place on, behind the stored digest before it. -/
def recordChecks (a : StreamAnchor) (previous : Digest) (index : Nat) (records : List Record) :
    List Check :=
  records.mapIdx fun j r => .record a (index + j) (endDigest previous (records.take j)) r

/-- The values of one stream: its digest, its nonce behind another stream, and its records. -/
def checks (p : Option StreamAnchor × StreamAnchor) (records : List Record) : List Check :=
  .stream p.2 :: (p.1.toList.map fun q => .anchor q p.2) ++ recordChecks p.2 p.2.digest 0 records

theorem recordChecks_cons (a : StreamAnchor) (previous : Digest) (index : Nat) (r : Record)
    (rest : List Record) :
    recordChecks a previous index (r :: rest) =
      .record a index previous r :: recordChecks a r.digest (index + 1) rest := by
  rw [recordChecks, List.mapIdx_cons, recordChecks]
  refine congrArg _ (congrArg (List.mapIdx · rest) ?_)
  funext j s
  rw [List.take_succ_cons, endDigest_cons, Nat.add_assoc, Nat.add_comm j]

/-- One value is reported exactly when it differs. -/
theorem reported_of_compared {α : Type} [DecidableEq α] {x : Except InputError α} {stored : α}
    {report : α → Violation} {c : Check} {found : List Violation}
    (differs : c.differs H = decide (x ≠ .ok stored))
    (reported : ∀ computed, x = .ok computed → c.IsReportedBy H (report computed))
    (h : (do let computed ← x; return if computed = stored then [] else [report computed]) =
      .ok found) :
    List.Forall₂ (Check.IsReportedBy H) ([c].filter (Check.differs H)) found := by
  obtain ⟨computed, hc, h⟩ := Except.bind_eq_ok_iff.1 h
  obtain rfl := Except.ok.inj h
  rw [List.filter_singleton, differs, hc]
  by_cases same : computed = stored
  · simp [same]
  · rw [if_neg same]
    simpa [same] using reported computed hc

theorem checkStream_reported {found : List Violation} (h : checkStream H a = .ok found) :
    List.Forall₂ (Check.IsReportedBy H) ([.stream a].filter (Check.differs H)) found :=
  reported_of_compared rfl (fun _ => .stream) h

theorem checkBehind_reported {found : List Violation} (h : checkBehind H p = .ok found) :
    List.Forall₂ (Check.IsReportedBy H)
      ((p.1.toList.map fun q => Check.anchor q p.2).filter (Check.differs H)) found := by
  obtain ⟨_ | q, a⟩ := p
  · cases h
    exact .nil
  · exact reported_of_compared rfl (fun _ _ => .anchor) h

theorem checkRecords_reported {previous : Digest} {index : Nat} {records : List Record}
    {found : List Violation}
    (h : checkRecords H a.descriptor.name previous index records = .ok found) :
    List.Forall₂ (Check.IsReportedBy H)
      ((recordChecks a previous index records).filter (Check.differs H)) found := by
  induction records generalizing previous index found with
  | nil =>
    cases h
    exact .nil
  | cons r rest ih =>
    -- the first record is compared behind `previous`, the others behind its stored digest
    obtain ⟨computed, hc, h⟩ := Except.bind_eq_ok_iff.1 h
    obtain ⟨later, hl, h⟩ := Except.bind_eq_ok_iff.1 h
    obtain rfl := Except.ok.inj h
    rw [recordChecks_cons, List.filter_cons]
    by_cases same : computed = r.digest
    · have fits : Check.differs H (.record a index previous r) = false := by
        simp [Check.differs, hc, same]
      rw [if_pos same, fits]
      exact ih hl
    · have differs : Check.differs H (.record a index previous r) = true := by
        simp [Check.differs, hc, same]
      rw [if_neg same, differs]
      exact .cons (.record hc) (ih hl)

/-- What is found about a stream are its values that differ, in order. -/
theorem examine_reported {e : Examination} (h : examine H store p = .ok e) :
    List.Forall₂ (Check.IsReportedBy H) ((checks p e.records).filter (Check.differs H))
      e.found := by
  obtain ⟨ofStream, ofAnchor, ofRecords, hs, hb, -, hr, -, parts⟩ := examine_eq_ok_iff.1 h
  rw [parts, checks, ← List.singleton_append, List.filter_append, List.filter_append]
  exact List.rel_append (List.rel_append (checkStream_reported hs) (checkBehind_reported hb))
    (checkRecords_reported hr)

/-- The report says of these streams, with these records, what their stored values are worth. -/
structure Exact (H : HashFunction) (as : List StreamAnchor) (chain : StreamId → List Record)
    (report : AuditReport) : Prop where
  /-- The values that differ are reported, each once, in the order of the rows. -/
  violations : List.Forall₂ (Check.IsReportedBy H)
    (((behind none as).flatMap fun p => checks p (chain p.2.id)).filter (Check.differs H))
    report.violations
  /-- Nothing is reported exactly when every chain is replayed as it is stored. -/
  clean : report.isClean = true ↔
    (∀ a ∈ as, streamDigest H a.nonce a.descriptor = .ok a.digest) ∧
      (∀ before q a after, as = before ++ q :: a :: after →
        nextNonce H q.digest q.descriptor = .ok a.nonce) ∧
      ∀ a ∈ as, replay H a.digest ((chain a.id).map Record.link) =
        .ok ((chain a.id).map Record.digest)
  streams : report.streamsChecked = as.length
  records : report.recordsChecked = (as.map fun a => (chain a.id).length).sum
  tips : ∀ a ∈ as, report.tip a.descriptor.name = some (lastDigest a (chain a.id))
  unknown : ∀ name, (∀ a ∈ as, a.descriptor.name ≠ name) → report.tip name = none

/-! ### Streams and the ones before them -/

theorem exists_mem_behind (previous : Option StreamAnchor) (ha : a ∈ as) :
    ∃ o, (o, a) ∈ behind previous as := by
  rw [← map_snd_behind previous as] at ha
  obtain ⟨⟨o, b⟩, hp, rfl⟩ := List.mem_map.1 ha
  exact ⟨o, hp⟩

theorem mem_behind_of_split {previous : Option StreamAnchor} (before after : List StreamAnchor) :
    (some q, a) ∈ behind previous (before ++ q :: a :: after) := by
  induction before generalizing previous with
  | nil => exact List.mem_cons_of_mem _ List.mem_cons_self
  | cons b rest ih => exact List.mem_cons_of_mem _ ih

end Audit

open Audit

namespace Store

variable {as : List StreamAnchor} {report : AuditReport}

/-- The records that a store answers for a number. -/
def chainOf (store : Store) (id : StreamId) : List Record := (store.chain id).toOption.getD []

theorem chainOf_of_chain {id : StreamId} {records : List Record}
    (h : store.chain id = .ok records) : store.chainOf id = records := by
  rw [chainOf, h]
  rfl

theorem isClean_iff (ha : store.anchors = .ok as) (h : store.audit H = .ok report) :
    report.isClean = true ↔ ∀ p ∈ behind none as, Fits H p (store.chainOf p.2.id) := by
  obtain ⟨as', es, ha', each, rfl⟩ := audit_eq_ok_iff.1 h
  obtain rfl := Except.ok.inj (ha'.symm.trans ha)
  constructor
  · intro clean
    obtain ⟨fits, -⟩ := fits_of_clean each (AuditReport.isClean_extend_iff.1 clean)
      fun _ _ => chainOf_of_chain
    exact fun p hp => (fits p hp).2
  · intro fits
    refine AuditReport.isClean_extend_iff.2 fun e he => ?_
    obtain ⟨p, hp, made⟩ := Except.exists_of_mem_mapM (Except.mapM_eq_ok_iff.2 each) he
    -- the examination of a stream that fits finds nothing
    obtain ⟨_, _, _, -, -, hc, -⟩ := examine_eq_ok_iff.1 made
    have nothing := examine_eq_clean_iff.2 ⟨hc, chainOf_of_chain hc ▸ fits p hp⟩
    rw [Except.ok.inj (made.symm.trans nothing)]

/-- Each examination is of its stream, with the records that are answered for it. -/
theorem examined_eq {es : List Examination}
    (each : List.Forall₂ (fun p e => examine H store p = .ok e) (behind none as) es) :
    es.map (fun e => (e.anchor, e.records)) = as.map fun a => (a, store.chainOf a.id) := by
  have pairs := each.imp fun p e made =>
    show (p.2, store.chainOf p.2.id) = (e.anchor, e.records) by
      obtain ⟨_, _, _, -, -, hc, -, anchor, -⟩ := examine_eq_ok_iff.1 made
      rw [chainOf_of_chain hc, anchor]
  have same := List.forall₂_map_left_iff.2 (List.forall₂_map_right_iff.2 pairs)
  rw [List.forall₂_eq_eq_eq] at same
  conv_rhs => rw [← map_snd_behind none as, List.map_map]
  exact same.symm

theorem tip_extend_of_examined {es : List Examination} {chain : StreamId → List Record}
    (same : es.map (fun e => (e.anchor, e.records)) = as.map fun a => (a, chain a.id))
    (name : String) :
    (AuditReport.extend {} es).tip name = (AuditReport.ofStreams as chain).tip name := by
  have ends := congrArg (List.map fun x => (x.1.descriptor.name, lastDigest x.1 x.2)) same
  simp only [List.map_map] at ends
  have tips : (AuditReport.extend {} es).tips = (AuditReport.ofStreams as chain).tips := by
    simp only [AuditReport.ofStreams, AuditReport.extend, List.map_map]
    exact congrArg ([] ++ ·) ends
  rw [AuditReport.tip, AuditReport.tip, tips]

theorem violations_reported {es : List Examination}
    (each : List.Forall₂ (fun p e => examine H store p = .ok e) (behind none as) es) :
    List.Forall₂ (Check.IsReportedBy H)
      (((behind none as).flatMap fun p => checks p (store.chainOf p.2.id)).filter (Check.differs H))
      (es.flatMap Examination.found) := by
  have shown := each.imp fun p e made =>
    show List.Forall₂ (Check.IsReportedBy H)
        ((checks p (store.chainOf p.2.id)).filter (Check.differs H)) e.found by
      obtain ⟨_, _, _, -, -, hc, -⟩ := examine_eq_ok_iff.1 made
      rw [chainOf_of_chain hc]
      exact examine_reported made
  rw [List.filter_flatMap]
  exact List.rel_flatMap shown fun _ _ said => said

/-- Every stream fits exactly when the digests of the streams, their nonces and their chains are the
computed ones. -/
theorem fits_iff {chain : StreamId → List Record} :
    (∀ p ∈ behind none as, Fits H p (chain p.2.id)) ↔
      (∀ a ∈ as, streamDigest H a.nonce a.descriptor = .ok a.digest) ∧
        (∀ before q a after, as = before ++ q :: a :: after →
          nextNonce H q.digest q.descriptor = .ok a.nonce) ∧
        ∀ a ∈ as, replay H a.digest ((chain a.id).map Record.link) =
          .ok ((chain a.id).map Record.digest) := by
  constructor
  · intro fits
    refine ⟨fun a mem => ?_, fun before q a after split => ?_, fun a mem => ?_⟩
    · obtain ⟨o, hp⟩ := exists_mem_behind none mem
      exact (fits _ hp).digest
    · subst split
      exact (fits _ (mem_behind_of_split before after)).nonce q rfl
    · obtain ⟨o, hp⟩ := exists_mem_behind none mem
      exact (fits _ hp).chain
  · rintro ⟨digests, nonces, chains⟩ ⟨o, a⟩ hp
    have mem := snd_mem_of_mem_behind hp
    refine ⟨digests a mem, fun q hq => ?_, chains a mem⟩
    obtain rfl : o = some q := hq
    obtain ⟨_, none, -⟩ | ⟨before, after, split⟩ := split_of_mem_behind hp
    · cases none
    · exact nonces before q a after split

/-- **A report of an audit is exact.** -/
theorem exact_of_audit (distinct : (as.map fun a => a.descriptor.name).Nodup)
    (ha : store.anchors = .ok as) (h : store.audit H = .ok report) :
    Exact H as store.chainOf report := by
  have clean := (isClean_iff ha h).trans fits_iff
  obtain ⟨as', es, ha', each, rfl⟩ := audit_eq_ok_iff.1 h
  obtain rfl := Except.ok.inj (ha'.symm.trans ha)
  have same := examined_eq each
  have counts := congrArg List.length same
  have sums := congrArg (fun xs => (xs.map fun x => x.2.length).sum) same
  simp only [List.length_map, List.map_map] at counts sums
  exact {
    violations := violations_reported each
    clean := clean
    streams := (Nat.zero_add _).trans counts
    records := (Nat.zero_add _).trans sums
    tips := fun a mem => by
      rw [tip_extend_of_examined same, AuditReport.tip_ofStreams_of_mem distinct mem]
    unknown := fun name unused => by
      rw [tip_extend_of_examined same, AuditReport.tip_ofStreams_eq_none unused] }

/-! ### Every store -/

/-- An audit fails when the streams cannot be read or one of them blocks it. -/
theorem audit_eq_error_iff {e : SessionError}
    (assigned : ∀ as, store.anchors = .ok as → ∀ a ∈ as, 1 ≤ a.id.number) :
    store.audit H = .error e ↔
      (∃ cause, store.anchors = .error cause ∧ e = .backend .auditAnchors cause) ∨
        ∃ front a back, store.anchors = .ok (front ++ a :: back) ∧
          (∀ b ∈ front, store.IsReadable b) ∧ store.Blocks a e := by
  cases ha : store.anchors with
  | error cause =>
    rw [audit, ha]
    constructor
    · rintro ⟨⟩
      exact .inl ⟨cause, rfl, rfl⟩
    · rintro (⟨_, same, rfl⟩ | ⟨_, _, _, same, -⟩)
      · cases same
        rfl
      · cases same
  | ok as =>
    have whole : store.audit H = ((behind none as).mapM (examine H store)).map
        (AuditReport.extend {}) := by
      rw [audit, ha]
      exact checkFrom_eq {} none as
    have stops : ((behind none as).mapM (examine H store)).map (AuditReport.extend {}) = .error e ↔
        (behind none as).mapM (examine H store) = .error e := Except.bind_pure_eq_error_iff
    have first : ∀ q, (none : Option StreamAnchor) = some q → q.descriptor.IsValid :=
      fun _ h => by cases h
    rw [whole, stops, examine_all_eq_error_iff first (assigned as ha)]
    constructor
    · rintro ⟨front, a, back, rfl, blocked⟩
      exact .inr ⟨front, a, back, rfl, blocked⟩
    · rintro (⟨_, same, -⟩ | ⟨front, a, back, same, blocked⟩)
      · cases same
      · exact ⟨front, a, back, Except.ok.inj same, blocked⟩

/-- **What an audit answers.** It fails exactly when the streams cannot be read, or one of the rows,
with those before it readable, has an invalid descriptor or records that cannot be read. Otherwise
its report is exact: it is about all rows of streams, in their order, and about all records of each.
They are counted, where streams have different numbers and records are of streams. -/
theorem audit_answers (H : HashFunction) (store : Store)
    (assigned : ∀ row ∈ store.tables.streams, 1 ≤ row.id.number)
    (distinct : (store.tables.streams.map fun row => row.descriptor.name).Nodup) :
    ((∃ e, store.audit H = .error e) ↔
        (∃ e, store.anchors = .error e) ∨
          ∃ front a back, store.anchors = .ok (front ++ a :: back) ∧
            store.tables.streams = (front ++ a :: back).map StreamAnchor.row ∧
            (∀ b ∈ front, store.IsReadable b) ∧
            (¬a.descriptor.IsValid ∨ ∃ e, store.chain a.id = .error e)) ∧
      ∀ report, store.audit H = .ok report →
        (∃ as chain, store.tables.Lists as chain ∧ store.anchors = .ok as ∧
          (∀ a ∈ as, store.chain a.id = .ok (chain a.id)) ∧ Exact H as chain report) ∧
        report.streamsChecked = store.tables.streams.length ∧
        ((store.tables.streams.map StreamRow.id).Nodup →
          (∀ row ∈ store.tables.records, ∃ s ∈ store.tables.streams, s.id = row.stream) →
          report.recordsChecked = store.tables.records.length) := by
  -- the streams that are answered are the rows
  have rows : ∀ as, store.anchors = .ok as → store.tables.streams = as.map StreamAnchor.row :=
    fun as ha => Tables.streams_of_anchorList (tables_anchorList ha)
  have numbers : ∀ as, store.anchors = .ok as → ∀ a ∈ as, 1 ≤ a.id.number := fun as ha a mem =>
    assigned a.row (rows as ha ▸ List.mem_map_of_mem mem)
  refine ⟨⟨?_, ?_⟩, fun report h => ?_⟩
  · rintro ⟨e, h⟩
    obtain ⟨cause, failed, -⟩ | ⟨front, a, back, ha, fine, blocks⟩ :=
      (audit_eq_error_iff numbers).1 h
    · exact .inl ⟨cause, failed⟩
    · refine .inr ⟨front, a, back, ha, rows _ ha, fine, ?_⟩
      by_contra readable
      rw [not_or, not_not, not_exists] at readable
      cases hc : store.chain a.id with
      | error e => exact readable.2 e hc
      | ok records => exact blocks.not_isReadable ⟨readable.1, records, hc⟩
  · rintro (⟨e, failed⟩ | ⟨front, a, back, ha, -, fine, bad⟩)
    · exact ⟨_, (audit_eq_error_iff numbers).2 (.inl ⟨e, failed, rfl⟩)⟩
    · obtain ⟨valid, records, hc⟩ | ⟨e, blocks⟩ := isReadable_or_blocks store a
      · obtain invalid | ⟨e, unread⟩ := bad
        · exact absurd valid invalid
        · cases hc.symm.trans unread
      · exact ⟨e, (audit_eq_error_iff numbers).2 (.inr ⟨front, a, back, ha, fine, blocks⟩)⟩
  · obtain ⟨as, es, ha, each, -⟩ := audit_eq_ok_iff.1 h
    have names : (as.map fun a => a.descriptor.name).Nodup := by
      rw [rows as ha, List.map_map] at distinct
      exact distinct
    have chains : ∀ a ∈ as, store.chain a.id = .ok (store.chainOf a.id) := by
      intro a mem
      obtain ⟨o, hp⟩ := exists_mem_behind none mem
      obtain ⟨e, -, made⟩ := Except.exists_of_mem_of_mapM (Except.mapM_eq_ok_iff.2 each) hp
      obtain ⟨_, _, _, -, -, hc, -⟩ := examine_eq_ok_iff.1 made
      rw [chainOf_of_chain hc]
      exact hc
    have exact := exact_of_audit names ha h
    have lists := lists_of_answers ha chains
    refine ⟨⟨as, store.chainOf, lists, ha, chains, exact⟩, ?_, fun ids owned => ?_⟩
    · rw [exact.streams, lists.streams, List.length_map]
    · rw [exact.records, lists.sum_length ids owned]

/-- A database with a stream and two records, of which the second was given another digest. -/
theorem audit_answers_of_altered :
    let H : HashFunction := fun _ => default
    let a : StreamAnchor := ⟨⟨1⟩, ⟨"trades", "Trade", "json"⟩, Nonce.fill 1, default⟩
    let altered : Record := ⟨8, ⟨1⟩, [2], Digest.fill 9⟩
    let rows : Rows := ⟨[a], [(1, ⟨7, ⟨1⟩, [1], default⟩), (2, altered)]⟩
    let database : Database := { versions := some [1], tables := some rows.tables }
    let store : Store :=
      { engine := .connection { content := .database database 3, mode := .readOnly } }
    (∀ row ∈ store.tables.streams, 1 ≤ row.id.number) ∧
      (store.tables.streams.map fun row => row.descriptor.name).Nodup ∧
      ∃ report as chain, store.audit H = .ok report ∧ store.tables.Lists as chain ∧
        Exact H as chain report ∧ report.isClean = false ∧
        report.count .recordDigestMismatch = 1 ∧ report.streamsChecked = 1 ∧
        report.recordsChecked = 2 := by
  intro H a altered rows database store
  have tables : store.tables = rows.tables := rfl
  have assigned : ∀ row ∈ store.tables.streams, 1 ≤ row.id.number := by
    rw [tables]
    decide
  have distinct : (store.tables.streams.map fun row => row.descriptor.name).Nodup := by
    rw [tables]
    decide
  have ofStream : checkStream H a = .ok [] := checkStream_eq_nil_iff.2
    (Except.map_eq_ok_iff.2 ⟨_, streamPreimage_eq_ok_iff.2 ⟨by decide, rfl⟩, rfl⟩)
  have computed : ∀ previous timestamp payload,
      recordDigest H previous ⟨timestamp, ⟨1⟩, payload⟩ = .ok default := fun _ _ _ =>
    Except.map_eq_ok_iff.2 ⟨_, recordPreimage_eq_ok_iff.2 ⟨rfl, rfl⟩, rfl⟩
  let mismatch : Violation :=
    ⟨.recordDigestMismatch, "trades", some 1, difference altered.digest default⟩
  have ofRecords : checkRecords H "trades" a.digest 0 [⟨7, ⟨1⟩, [1], default⟩, altered] =
      .ok [mismatch] := by
    rw [checkRecords, checkRecords, checkRecords, Record.link, Record.link, computed, computed]
    rfl
  have examined : examine H store (none, a) =
      .ok ⟨a, [⟨7, ⟨1⟩, [1], default⟩, altered], [mismatch]⟩ :=
    examine_eq_ok_iff.2 ⟨[], [], [mismatch], ofStream, rfl, rfl, ofRecords, rfl, rfl⟩
  have found := audit_eq_ok_iff.2 ⟨[a], _, rfl, .cons examined .nil, rfl⟩
  obtain ⟨⟨as, chain, lists, -, -, exact⟩, streams, records⟩ :=
    (audit_answers H store assigned distinct).2 _ found
  exact ⟨assigned, distinct, _, as, chain, found, lists, exact, rfl, rfl, streams,
    records (by rw [tables]; decide) (by rw [tables]; decide)⟩

end Store

end SealedLog

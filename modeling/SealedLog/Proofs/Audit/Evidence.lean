import SealedLog.Proofs.Audit
import SealedLog.Proofs.Chain.Collision

/-!
# A tip is evidence

Two stores whose audits are clean, and which report one tip for a stream of each, have the same
stream: nonce, descriptor and all records. Else two different byte strings that were hashed during
the audits have one hash.

* `Store.hashed`: what is hashed while a store is audited;
* `Store.audit_congr`: the report depends on the hashes of these byte strings alone;
* `Store.Shows`: the stream that a report gives the tip of, and its records;
* `Store.tamper_evident`: the same stream, or a collision.
-/

namespace SealedLog

open Audit

variable {H H' : HashFunction} {store : Store}

/-- What is hashed to examine a stream behind the one before it. -/
def Store.hashedAt (store : Store) (p : Option StreamAnchor × StreamAnchor) : List Bytes :=
  (match p.1 with
    | none => []
    | some q => hashedBy (anchorPreimage q.digest q.descriptor)) ++
  hashedChain p.2 ((store.chain p.2.id).toOption.getD [])

/-- What is hashed while a store is audited. -/
def Store.hashed (store : Store) : List Bytes :=
  (behind none (store.anchors.toOption.getD [])).flatMap store.hashedAt

namespace Audit

/-! ### Nothing else is hashed -/

theorem map_hash_congr {α : Type} {x : Except InputError Bytes} (f : Digest → α)
    (same : ∀ octets ∈ hashedBy x, H octets = H' octets) :
    (x.map fun octets => f (H octets)) = x.map fun octets => f (H' octets) := by
  cases x with
  | error e => rfl
  | ok octets => exact congrArg (fun digest => Except.ok (f digest)) (same _ (mem_hashedBy.2 rfl))

theorem checkStream_congr {a : StreamAnchor}
    (same : ∀ octets ∈ hashedBy (streamPreimage a.nonce a.descriptor), H octets = H' octets) :
    checkStream H a = checkStream H' a := by
  have digest : streamDigest H a.nonce a.descriptor = streamDigest H' a.nonce a.descriptor :=
    map_hash_congr id same
  rw [checkStream, checkStream, digest]

theorem checkAnchor_congr {q a : StreamAnchor}
    (same : ∀ octets ∈ hashedBy (anchorPreimage q.digest q.descriptor), H octets = H' octets) :
    checkAnchor H q a = checkAnchor H' q a := by
  have nonce : nextNonce H q.digest q.descriptor = nextNonce H' q.digest q.descriptor :=
    map_hash_congr Digest.toNonce same
  rw [checkAnchor, checkAnchor, nonce]

theorem checkRecords_congr {name : String} {previous : Digest} {index : Nat}
    {records : List Record}
    (same : ∀ octets ∈ hashedRecords previous records, H octets = H' octets) :
    checkRecords H name previous index records = checkRecords H' name previous index records := by
  induction records generalizing previous index with
  | nil => rfl
  | cons r rest ih =>
    have digest : recordDigest H previous r.link = recordDigest H' previous r.link :=
      map_hash_congr id fun octets h => same octets (List.mem_append_left _ h)
    rw [checkRecords, checkRecords, digest, ih fun octets h => same octets
      (List.mem_append_right _ h)]

theorem examine_congr {p : Option StreamAnchor × StreamAnchor}
    (same : ∀ octets ∈ store.hashedAt p, H octets = H' octets) :
    examine H store p = examine H' store p := by
  obtain ⟨previous, a⟩ := p
  have ofStream : checkStream H a = checkStream H' a := checkStream_congr fun octets h =>
    same octets (List.mem_append_right _ (List.mem_append_left _ h))
  have ofAnchor : checkBehind H (previous, a) = checkBehind H' (previous, a) := by
    cases previous with
    | none => rfl
    | some q => exact checkAnchor_congr fun octets h => same octets (List.mem_append_left _ h)
  unfold examine
  dsimp only
  rw [ofStream, ofAnchor]
  -- what is hashed for the records depends on what the store answers
  cases hc : store.chain a.id with
  | error e => rfl
  | ok records =>
    have ofRecords : checkRecords H a.descriptor.name a.digest 0 records =
        checkRecords H' a.descriptor.name a.digest 0 records :=
      checkRecords_congr fun octets h => same octets <| by
        refine List.mem_append_right _ (List.mem_append_right _ ?_)
        rw [hc]
        exact h
    have during : StoreError.during (.auditStream a.descriptor.name) (.ok records) =
        .ok records := StoreError.during_eq_ok_iff.2 rfl
    have next : ∀ f : List Record → Except SessionError Examination,
        (Except.ok records >>= f) = f records := fun _ => rfl
    simp only [during, next, ofRecords]

end Audit

namespace Store

/-- **An audit depends on nothing but the hashes of what it hashes.** -/
theorem audit_congr (same : ∀ octets ∈ store.hashed, H octets = H' octets) :
    store.audit H = store.audit H' := by
  unfold audit
  cases ha : store.anchors with
  | error e => rfl
  | ok as =>
    have each : ∀ p ∈ behind none as, examine H store p = examine H' store p := by
      refine fun p hp => examine_congr fun octets h => same octets (List.mem_flatMap.2 ⟨p, ?_, h⟩)
      rw [ha]
      exact hp
    show checkFrom H store {} none as = checkFrom H' store {} none as
    rw [checkFrom_eq, checkFrom_eq, Except.mapM_congr each]

variable {A B : Store} {a b : StreamAnchor} {ra rb : List Record}
  {report reportA reportB : AuditReport} {name nameA nameB : String}

/-- The stream that a report gives the tip of, the last row of this name, and the rows of its
records. -/
structure Shows (store : Store) (name : String) (a : StreamAnchor) (records : List Record) :
    Prop where
  stream : store.tables.streams.reverse.find? (fun row => row.descriptor.name == name) = some a.row
  records : List.Forall₂ (fun row r => row = r.row row.id) (store.tables.recordsOf a.id) records

/-- A store that answers its streams answers the one that a report gives the tip of. -/
theorem Shows.find_anchors {as : List StreamAnchor} (shows : store.Shows name a ra)
    (ha : store.anchors = .ok as) :
    as.reverse.find? (fun a => a.descriptor.name == name) = some a := by
  have found := shows.stream
  rw [Tables.streams_of_anchorList (tables_anchorList ha), ← List.map_reverse, List.find?_map]
    at found
  obtain ⟨a', found, same⟩ := Option.map_eq_some_iff.1 found
  rwa [StreamAnchor.row_injective same] at found

/-- What a clean report says about a stream. -/
theorem Shows.evidence (shows : store.Shows name a ra) (audit : store.audit H = .ok report)
    (clean : report.isClean = true) :
    report.tip name = some (endDigest a.digest ra) ∧
      streamDigest H a.nonce a.descriptor = .ok a.digest ∧ Replays H a.digest ra ∧
      store.chain a.id = .ok ra ∧ ∀ octets ∈ hashedChain a ra, octets ∈ store.hashed := by
  obtain ⟨as, chain, ha, fits, rfl⟩ := audit_clean_iff.1 ⟨audit, clean⟩
  have found := shows.find_anchors ha
  have mem : a ∈ as := List.mem_reverse.1 (List.mem_of_find?_eq_some found)
  rw [← map_snd_behind none as] at mem
  obtain ⟨p, hp, rfl⟩ := List.mem_map.1 mem
  obtain ⟨hc, fits⟩ := fits p hp
  obtain rfl : chain p.2.id = ra :=
    Record.eq_of_rows (Tables.records_of_chain (tables_chain hc)) shows.records
  refine ⟨?_, fits.digest, fits.chain, hc, fun octets h => ?_⟩
  · rw [AuditReport.tip_ofStreams, found]
    rfl
  · unfold hashed hashedAt
    rw [ha]
    refine List.mem_flatMap.2 ⟨p, hp, List.mem_append_right _ ?_⟩
    rw [hc]
    exact h

/-- **Streams with one tip are the same, or there is a collision** among what was hashed during the
audits of their stores. -/
theorem tamper_evident (auditA : A.audit H = .ok reportA) (auditB : B.audit H = .ok reportB)
    (cleanA : reportA.isClean = true) (cleanB : reportB.isClean = true)
    (showsA : A.Shows nameA a ra) (showsB : B.Shows nameB b rb)
    (sizedA : a.descriptor.IsSized) (sizedB : b.descriptor.IsSized)
    (payloadsA : ∀ r ∈ ra, r.payload.length < 2 ^ 64)
    (payloadsB : ∀ r ∈ rb, r.payload.length < 2 ^ 64)
    (tips : reportA.tip nameA = reportB.tip nameB) :
    (a.nonce = b.nonce ∧ a.descriptor = b.descriptor ∧ ra = rb ∧ (ra ≠ [] → a.id = b.id)) ∨
      Collides H (A.hashed ++ B.hashed) := by
  obtain ⟨tipA, digestA, chainA, readA, hashedA⟩ := showsA.evidence auditA cleanA
  obtain ⟨tipB, digestB, chainB, readB, hashedB⟩ := showsB.evidence auditB cleanB
  have ends : endDigest a.digest ra = endDigest b.digest rb :=
    Option.some.inj (tipA.symm.trans (tips.trans tipB))
  -- both chains end with the one tip
  obtain ⟨nonce, descriptor, rfl⟩ | collides :=
    same_or_collides sizedA sizedB payloadsA payloadsB digestA digestB chainA chainB ends
  · refine .inl ⟨nonce, descriptor, rfl, fun some => ?_⟩
    obtain ⟨r, hr⟩ := List.exists_mem_of_ne_nil ra some
    exact (stream_of_mem_chain readA hr).symm.trans (stream_of_mem_chain readB hr)
  · refine .inr (collides.mono fun octets h => ?_)
    rcases List.mem_append.1 h with ofA | ofB
    · exact List.mem_append_left _ (hashedA octets ofA)
    · exact List.mem_append_right _ (hashedB octets ofB)

/-- Stores with one stream and one record each, whose payloads differ, under a hash function with
one value: the tips are equal, and there is a collision. -/
theorem tamper_evident_of_payloads :
    let H : HashFunction := fun _ => default
    let a : StreamAnchor := ⟨⟨1⟩, ⟨"trades", "Trade", "json"⟩, Nonce.fill 1, default⟩
    let record (payload : Bytes) : Record := ⟨7, ⟨1⟩, payload, default⟩
    let store (payload : Bytes) : Store :=
      { engine := .memory ⟨[a], [(2, record payload)], true, 2⟩ }
    let report (payload : Bytes) := AuditReport.ofStreams [a] fun _ => [record payload]
    (store [1]).audit H = .ok (report [1]) ∧ (store [2]).audit H = .ok (report [2]) ∧
      (report [1]).tip "trades" = (report [2]).tip "trades" ∧
      Collides H ((store [1]).hashed ++ (store [2]).hashed) := by
  intro H a record store report
  have audit : ∀ payload, (store payload).audit H = .ok (report payload) ∧
      (report payload).isClean = true := by
    refine fun payload => audit_clean_iff.2 ⟨[a], _, rfl, fun p hp => ?_, rfl⟩
    obtain rfl : p = (none, a) := List.mem_singleton.1 hp
    refine ⟨rfl, ?_, fun _ h => (nomatch h), replays_cons_iff.2 ⟨?_, replays_nil _ _⟩⟩
    · exact Except.map_eq_ok_iff.2 ⟨_, streamPreimage_eq_ok_iff.2 ⟨by decide, rfl⟩, rfl⟩
    · exact Except.map_eq_ok_iff.2 ⟨_, recordPreimage_eq_ok_iff.2 ⟨rfl, rfl⟩, rfl⟩
  have shows : ∀ payload, (store payload).Shows "trades" a [record payload] :=
    fun payload => ⟨rfl, .cons rfl .nil⟩
  have sized : a.descriptor.IsSized := ⟨by decide, by decide, by decide⟩
  have payloads : ∀ payload : Bytes, payload.length < 2 ^ 64 →
      ∀ r ∈ [record payload], r.payload.length < 2 ^ 64 := by
    intro payload small r hr
    rw [List.mem_singleton.1 hr]
    exact small
  have evident := tamper_evident (audit [1]).1 (audit [2]).1 (audit [1]).2 (audit [2]).2 (shows [1])
    (shows [2]) sized sized (payloads [1] (by decide)) (payloads [2] (by decide)) rfl
  refine ⟨(audit [1]).1, (audit [2]).1, rfl, evident.resolve_left fun same => ?_⟩
  exact absurd same.2.2.1 (by decide)

end Store

end SealedLog

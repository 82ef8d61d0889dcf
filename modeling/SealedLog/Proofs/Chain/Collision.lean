import Mathlib.Data.List.Induction
import SealedLog.Proofs.Chain.Preimage
import SealedLog.Proofs.Chain.Replay
import SealedLog.Store.Basic

/-!
# Chains with one end

Two chains that end with the same digest are the same chain, unless the hash function gives one
digest to two different byte strings that were hashed for them. Nothing is asked of the hash
function, and the chains may have any lengths.

* `Collides`: two different byte strings of a list have one hash;
* `hashedBy`, `hashedRecords`: what is hashed for a digest, and for those of some records;
* `same_or_collides`: the same chain, or a collision.
-/

namespace SealedLog

variable {H : HashFunction}

/-- Two different byte strings among these have one hash. -/
def Collides (H : HashFunction) (hashed : List Bytes) : Prop :=
  ∃ x ∈ hashed, ∃ y ∈ hashed, x ≠ y ∧ H x = H y

theorem Collides.mono {xs ys : List Bytes} (h : Collides H xs) (sub : ∀ x ∈ xs, x ∈ ys) :
    Collides H ys := by
  obtain ⟨x, hx, y, hy, ne, same⟩ := h
  exact ⟨x, sub x hx, y, sub y hy, ne, same⟩

theorem Collides.mono_append {xs xs' ys ys' : List Bytes} (h : Collides H (xs ++ ys))
    (sub : ∀ x ∈ xs, x ∈ xs') (sub' : ∀ y ∈ ys, y ∈ ys') : Collides H (xs' ++ ys') := by
  refine h.mono fun z hz => ?_
  rcases List.mem_append.1 hz with ofX | ofY
  · exact List.mem_append_left _ (sub z ofX)
  · exact List.mem_append_right _ (sub' z ofY)

/-- Hashes of two kinds of byte strings collide when two of them that differ have one digest. -/
theorem collides_append {xs ys : List Bytes} {x y : Bytes} {g g' : Digest} (hx : x ∈ xs)
    (hy : y ∈ ys) (ne : x ≠ y) (ofX : H x = g) (ofY : H y = g') (same : g = g') :
    Collides H (xs ++ ys) :=
  ⟨x, List.mem_append_left _ hx, y, List.mem_append_right _ hy, ne, ofX.trans (same.trans ofY.symm)⟩

/-- What is hashed for a digest: its preimage, if there is one. -/
def hashedBy (preimage : Except InputError Bytes) : List Bytes := preimage.toOption.toList

/-- What is hashed for the digests of records, each behind the stored digest before it. -/
def hashedRecords : Digest → List Record → List Bytes
  | _, [] => []
  | previous, r :: rest => hashedBy (recordPreimage previous r.link) ++ hashedRecords r.digest rest

/-- What is hashed for a stream with its records. -/
def hashedChain (a : StreamAnchor) (records : List Record) : List Bytes :=
  hashedBy (streamPreimage a.nonce a.descriptor) ++ hashedRecords a.digest records

theorem mem_hashedBy {x : Except InputError Bytes} {octets : Bytes} :
    octets ∈ hashedBy x ↔ x = .ok octets := by
  cases x <;> simp [hashedBy, Except.toOption, eq_comm]

theorem hashedRecords_concat (start : Digest) (records : List Record) (r : Record) :
    hashedRecords start (records ++ [r]) = hashedRecords start records ++
      hashedBy (recordPreimage (endDigest start records) r.link) := by
  induction records generalizing start with
  | nil => simp [hashedRecords]
  | cons first rest ih =>
    rw [List.cons_append, hashedRecords, ih, hashedRecords, endDigest_cons, List.append_assoc]

variable {a b : StreamAnchor} {ra rb : List Record} {r s : Record}

theorem hashedChain_concat (a : StreamAnchor) (records : List Record) (r : Record) :
    hashedChain a (records ++ [r]) =
      hashedChain a records ++ hashedBy (recordPreimage (endDigest a.digest records) r.link) := by
  rw [hashedChain, hashedRecords_concat, ← List.append_assoc]
  rfl

theorem mem_hashedChain_of_stream {x : Bytes}
    (h : streamPreimage a.nonce a.descriptor = .ok x) (records : List Record) :
    x ∈ hashedChain a records :=
  List.mem_append_left _ (mem_hashedBy.2 h)

theorem mem_hashedChain_of_last {x : Bytes}
    (h : recordPreimage (endDigest a.digest ra) r.link = .ok x) :
    x ∈ hashedChain a (ra ++ [r]) := by
  rw [hashedChain_concat]
  exact List.mem_append_right _ (mem_hashedBy.2 h)

/-- Two chains without records. -/
theorem same_or_collides_nil (sizedA : a.descriptor.IsSized) (sizedB : b.descriptor.IsSized)
    (ofA : streamDigest H a.nonce a.descriptor = .ok a.digest)
    (ofB : streamDigest H b.nonce b.descriptor = .ok b.digest) (same : a.digest = b.digest) :
    (a.nonce = b.nonce ∧ a.descriptor = b.descriptor) ∨
      Collides H (hashedChain a [] ++ hashedChain b []) := by
  obtain ⟨x, hx, dx⟩ := Except.map_eq_ok_iff.1 ofA
  obtain ⟨y, hy, dy⟩ := Except.map_eq_ok_iff.1 ofB
  -- either one byte string was hashed for both, or two that collide
  by_cases equal : x = y
  · subst equal
    exact .inl (streamPreimage_inj sizedA sizedB hx hy)
  · have memA := mem_hashedChain_of_stream hx []
    have memB := mem_hashedChain_of_stream hy []
    exact .inr (collides_append memA memB equal dx dy same)

/-- A stream and a record never have one digest without a collision. -/
theorem collides_of_stream_of_record (ofA : streamDigest H a.nonce a.descriptor = .ok a.digest)
    (ofS : recordDigest H (endDigest b.digest rb) s.link = .ok s.digest)
    (same : a.digest = s.digest) :
    Collides H (hashedChain a [] ++ hashedChain b (rb ++ [s])) := by
  obtain ⟨x, hx, dx⟩ := Except.map_eq_ok_iff.1 ofA
  obtain ⟨y, hy, dy⟩ := Except.map_eq_ok_iff.1 ofS
  have memA := mem_hashedChain_of_stream hx []
  have memB := mem_hashedChain_of_last hy
  exact collides_append memA memB (streamPreimage_ne_recordPreimage hx hy) dx dy same

/-- Records with one digest behind two chains are the same behind chains that end alike. -/
theorem same_or_collides_concat (sizedR : r.payload.length < 2 ^ 64)
    (sizedS : s.payload.length < 2 ^ 64)
    (ofR : recordDigest H (endDigest a.digest ra) r.link = .ok r.digest)
    (ofS : recordDigest H (endDigest b.digest rb) s.link = .ok s.digest)
    (same : r.digest = s.digest) :
    (endDigest a.digest ra = endDigest b.digest rb ∧ r = s) ∨
      Collides H (hashedChain a (ra ++ [r]) ++ hashedChain b (rb ++ [s])) := by
  obtain ⟨x, hx, dx⟩ := Except.map_eq_ok_iff.1 ofR
  obtain ⟨y, hy, dy⟩ := Except.map_eq_ok_iff.1 ofS
  by_cases equal : x = y
  · subst equal
    obtain ⟨ends, links⟩ := recordPreimage_inj sizedR sizedS hx hy
    refine .inl ⟨ends, ?_⟩
    -- a record is its link and its digest
    cases r
    cases s
    cases links
    cases same
    rfl
  · have memA := mem_hashedChain_of_last hx
    have memB := mem_hashedChain_of_last hy
    exact .inr (collides_append memA memB equal dx dy same)

/-- **Chains that end with one digest are the same, or there is a collision** among what was hashed
for them. -/
theorem same_or_collides (sizedA : a.descriptor.IsSized) (sizedB : b.descriptor.IsSized)
    (payloadsA : ∀ r ∈ ra, r.payload.length < 2 ^ 64)
    (payloadsB : ∀ r ∈ rb, r.payload.length < 2 ^ 64)
    (ofA : streamDigest H a.nonce a.descriptor = .ok a.digest)
    (ofB : streamDigest H b.nonce b.descriptor = .ok b.digest)
    (chainA : Replays H a.digest ra) (chainB : Replays H b.digest rb)
    (same : endDigest a.digest ra = endDigest b.digest rb) :
    (a.nonce = b.nonce ∧ a.descriptor = b.descriptor ∧ ra = rb) ∨
      Collides H (hashedChain a ra ++ hashedChain b rb) := by
  -- from the end of both chains to their beginning: while no collision is found, the last records
  -- are the same, and so are the digests before them
  induction ra using List.reverseRecOn generalizing rb with
  | nil =>
    rcases List.eq_nil_or_concat rb with rfl | ⟨rb, s, rfl⟩
    · obtain ⟨nonce, descriptor⟩ | collides := same_or_collides_nil sizedA sizedB ofA ofB same
      · exact .inl ⟨nonce, descriptor, rfl⟩
      · exact .inr collides
    · -- the shorter chain ends with its stream while the other still has a record
      rw [List.concat_eq_append] at chainB same ⊢
      rw [endDigest_concat] at same
      exact .inr (collides_of_stream_of_record ofA (replays_concat_iff.1 chainB).2 same)
  | append_singleton ra r ih =>
    obtain ⟨frontA, ofR⟩ := replays_concat_iff.1 chainA
    rw [endDigest_concat] at same
    rcases List.eq_nil_or_concat rb with rfl | ⟨rb, s, rfl⟩
    · have collides := collides_of_stream_of_record ofB ofR same.symm
      exact .inr (collides.mono fun x hx => List.mem_append.2 (List.mem_append.1 hx).symm)
    · rw [List.concat_eq_append] at chainB same payloadsB ⊢
      obtain ⟨frontB, ofS⟩ := replays_concat_iff.1 chainB
      rw [endDigest_concat] at same
      obtain ⟨ends, rfl⟩ | collides := same_or_collides_concat (payloadsA r (by simp))
        (payloadsB s (by simp)) ofR ofS same
      · obtain ⟨nonce, descriptor, rfl⟩ | collides :=
          ih (fun t ht => payloadsA t (List.mem_append_left _ ht))
            (fun t ht => payloadsB t (List.mem_append_left _ ht)) frontA frontB ends
        · exact .inl ⟨nonce, descriptor, rfl⟩
        · rw [hashedChain_concat, hashedChain_concat]
          exact .inr (collides.mono_append (fun _ => List.mem_append_left _)
            fun _ => List.mem_append_left _)
      · exact .inr collides

end SealedLog

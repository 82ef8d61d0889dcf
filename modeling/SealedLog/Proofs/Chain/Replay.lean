import SealedLog.Chain
import SealedLog.Proofs.Except

/-!
# Chains of records

Records form a chain behind a digest when replaying their links gives the digests that they are
stored with.

* `Replays`: records form a chain behind a digest;
* `endDigest`: the digest that a chain ends with;
* `replays_cons_iff`, `replays_concat_iff`: a chain with one more record, in front and behind;
* `Replays.unique`: the links of a chain determine it.
-/

namespace SealedLog

variable {H : HashFunction} {start : Digest} {r : Record} {records : List Record}

/-- The stored digests are those that the records have behind this digest. -/
def Replays (H : HashFunction) (start : Digest) (records : List Record) : Prop :=
  replay H start (records.map Record.link) = .ok (records.map Record.digest)

/-- The last digest of records that stand behind a digest. -/
def endDigest (start : Digest) (records : List Record) : Digest :=
  (records.getLast?.map Record.digest).getD start

@[simp] theorem endDigest_nil (start : Digest) : endDigest start [] = start := rfl

@[simp] theorem endDigest_cons (start : Digest) (r : Record) (records : List Record) :
    endDigest start (r :: records) = endDigest r.digest records := by
  rw [endDigest, endDigest, List.getLast?_cons]
  cases records.getLast? <;> rfl

@[simp] theorem endDigest_concat (start : Digest) (records : List Record) (r : Record) :
    endDigest start (records ++ [r]) = r.digest := by
  rw [endDigest, List.getLast?_concat]
  rfl

theorem replays_nil (H : HashFunction) (start : Digest) : Replays H start [] := rfl

theorem replays_cons_iff :
    Replays H start (r :: records) ↔
      recordDigest H start r.link = .ok r.digest ∧ Replays H r.digest records := by
  unfold Replays
  rw [List.map_cons, List.map_cons, replay, Except.bind_eq_ok_iff]
  constructor
  · rintro ⟨digest, hd, h⟩
    obtain ⟨digests, hs, h⟩ := Except.bind_eq_ok_iff.1 h
    obtain ⟨rfl, rfl⟩ := List.cons.inj (Except.ok.inj h)
    exact ⟨hd, hs⟩
  · rintro ⟨hd, hs⟩
    exact ⟨r.digest, hd, Except.bind_eq_ok_iff.2 ⟨_, hs, rfl⟩⟩

/-- A chain grows by a record whose digest is taken behind its last digest. -/
theorem replays_concat_iff :
    Replays H start (records ++ [r]) ↔
      Replays H start records ∧ recordDigest H (endDigest start records) r.link = .ok r.digest := by
  induction records generalizing start with
  | nil =>
    rw [List.nil_append, replays_cons_iff, endDigest_nil]
    constructor
    · rintro ⟨h, -⟩
      exact ⟨replays_nil H start, h⟩
    · rintro ⟨-, h⟩
      exact ⟨h, replays_nil H r.digest⟩
  | cons first rest ih =>
    -- the digest at the end is that of the rest behind the first record
    rw [List.cons_append, replays_cons_iff, replays_cons_iff, ih, endDigest_cons, and_assoc]

/-- Chains behind one digest with the same links are the same. -/
theorem Replays.unique {records' : List Record} (chain : Replays H start records)
    (chain' : Replays H start records')
    (links : records.map Record.link = records'.map Record.link) : records = records' := by
  induction records generalizing start records' with
  | nil => exact (List.map_eq_nil_iff.1 links.symm).symm
  | cons r records ih =>
    cases records' with
    | nil => cases links
    | cons r' records' =>
      obtain ⟨link, rest⟩ := List.cons.inj links
      obtain ⟨digest, chain⟩ := replays_cons_iff.1 chain
      obtain ⟨digest', chain'⟩ := replays_cons_iff.1 chain'
      rw [link, digest'] at digest
      have same : r = r' := by
        cases r
        cases r'
        cases link
        cases digest
        rfl
      subst same
      rw [ih chain chain' rest]

end SealedLog

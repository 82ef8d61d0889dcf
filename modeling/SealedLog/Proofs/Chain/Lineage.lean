import SealedLog.Proofs.Chain.Collision
import SealedLog.Proofs.Chain.Sound

/-!
# Streams one after another

Streams are created one after another, each anchored to the nonce that the one before it left. The
root nonce and the descriptors determine all digests and the nonce at the end; and that nonce,
unless the hash function collides, determines the root and the descriptors.

* `Lineage`: streams that were created one after another, from a root nonce to the one at the end;
* `Lineage.unique`: root and descriptors determine the rest;
* `hashedLine`: what is hashed along the streams;
* `Lineage.same_or_collides`: one nonce at the end of as many streams has one history, or there is a
  collision.
-/

namespace SealedLog

variable {H : HashFunction} {root root' nonce nonce' : Nonce} {as bs : List StreamAnchor}
  {a b : StreamAnchor}

/-- The last stream of a thread is anchored to the nonce behind the ones before it. -/
theorem Threads.of_concat (h : Threads H root (as ++ [a]) nonce) :
    Threads H root as a.nonce ∧ nextNonce H a.digest a.descriptor = .ok nonce := by
  generalize whole : as ++ [a] = cs at h
  cases h with
  | none => exact absurd whole (by simp)
  | more anchored follows =>
    obtain ⟨rfl, last⟩ := List.append_inj' whole rfl
    obtain rfl := List.singleton_inj.1 last
    exact ⟨anchored, follows⟩

/-- Streams that were created one after another, the first anchored to `root`. The next one is to be
anchored to the nonce. -/
structure Lineage (H : HashFunction) (root : Nonce) (as : List StreamAnchor) (nonce : Nonce) :
    Prop where
  threads : Threads H root as nonce
  digests : ∀ a ∈ as, streamDigest H a.nonce a.descriptor = .ok a.digest

namespace Lineage

theorem nil (H : HashFunction) (root : Nonce) : Lineage H root [] root :=
  ⟨.none, fun _ h => (nomatch h)⟩

theorem concat_iff : Lineage H root (as ++ [a]) nonce ↔ Lineage H root as a.nonce ∧
    streamDigest H a.nonce a.descriptor = .ok a.digest ∧
      nextNonce H a.digest a.descriptor = .ok nonce := by
  constructor
  · rintro ⟨threads, digests⟩
    obtain ⟨anchored, follows⟩ := threads.of_concat
    exact ⟨⟨anchored, fun b hb => digests b (by simp [hb])⟩, digests a (by simp), follows⟩
  · rintro ⟨⟨anchored, digests⟩, digest, follows⟩
    refine ⟨.more anchored follows, fun b hb => ?_⟩
    rcases List.mem_append.1 hb with old | new
    · exact digests b old
    · rw [List.mem_singleton.1 new]
      exact digest

/-- **Streams of the same numbers and descriptors are the same behind one root**, and so is the
nonce that they leave. -/
theorem unique (line : Lineage H root as nonce) (line' : Lineage H root bs nonce')
    (ids : as.map StreamAnchor.id = bs.map StreamAnchor.id)
    (descriptors : as.map StreamAnchor.descriptor = bs.map StreamAnchor.descriptor) :
    as = bs ∧ nonce = nonce' := by
  -- from the root on: each stream is anchored to the nonce that equal streams left
  induction as using List.reverseRecOn generalizing bs nonce nonce' with
  | nil =>
    obtain rfl := List.map_eq_nil_iff.1 ids.symm
    exact ⟨rfl, line.threads.root_of_nil.trans line'.threads.root_of_nil.symm⟩
  | append_singleton as a ih =>
    rcases List.eq_nil_or_concat bs with rfl | ⟨bs, b, rfl⟩
    · simp at ids
    · rw [List.concat_eq_append] at ids descriptors line' ⊢
      simp only [List.map_append, List.map_singleton] at ids descriptors
      obtain ⟨idsFront, id⟩ := List.append_inj' ids rfl
      obtain ⟨descriptorsFront, descriptor⟩ := List.append_inj' descriptors rfl
      obtain ⟨front, digest, follows⟩ := concat_iff.1 line
      obtain ⟨front', digest', follows'⟩ := concat_iff.1 line'
      obtain ⟨rfl, anchor⟩ := ih front front' idsFront descriptorsFront
      rw [List.singleton_inj.1 descriptor] at digest follows
      rw [anchor, digest'] at digest
      have same : a = b := by
        cases a
        cases b
        cases id
        cases descriptor
        cases anchor
        cases digest
        rfl
      rw [same, follows'] at follows
      exact ⟨by rw [same], (Except.ok.inj follows).symm⟩

end Lineage

/-! ### Backwards from the nonce at the end -/

/-- What is hashed for a stream and for the nonce behind it. -/
def hashedAnchor (a : StreamAnchor) : List Bytes :=
  hashedBy (streamPreimage a.nonce a.descriptor) ++ hashedBy (anchorPreimage a.digest a.descriptor)

/-- What is hashed along some streams. -/
def hashedLine (as : List StreamAnchor) : List Bytes := as.flatMap hashedAnchor

/-- Streams that leave one nonce are anchored to one nonce and have one descriptor, or there is a
collision. -/
theorem same_anchor_or_collides (sizedA : a.descriptor.IsSized) (sizedB : b.descriptor.IsSized)
    (digestA : streamDigest H a.nonce a.descriptor = .ok a.digest)
    (digestB : streamDigest H b.nonce b.descriptor = .ok b.digest)
    (nextA : nextNonce H a.digest a.descriptor = .ok nonce)
    (nextB : nextNonce H b.digest b.descriptor = .ok nonce) :
    (a.nonce = b.nonce ∧ a.descriptor = b.descriptor) ∨
      Collides H (hashedAnchor a ++ hashedAnchor b) := by
  obtain ⟨x, hx, nx⟩ := Except.map_eq_ok_iff.1 nextA
  obtain ⟨y, hy, ny⟩ := Except.map_eq_ok_iff.1 nextB
  by_cases equal : x = y
  · -- one byte string was hashed for the nonce, so that the digests are one, too
    subst equal
    obtain ⟨digest, descriptor⟩ := anchorPreimage_inj sizedA sizedB hx hy
    refine (same_or_collides_nil sizedA sizedB digestA digestB digest).imp_right fun collides => ?_
    have ofStream : ∀ c, ∀ octets ∈ hashedChain c [], octets ∈ hashedAnchor c := by
      intro c octets h
      rw [hashedChain, hashedRecords, List.append_nil] at h
      exact List.mem_append_left _ h
    exact collides.mono_append (ofStream a) (ofStream b)
  · have hashes : H x = H y := Digest.ext (congrArg Nonce.bytes (nx.trans ny.symm))
    have memA : x ∈ hashedAnchor a := List.mem_append_right _ (mem_hashedBy.2 hx)
    have memB : y ∈ hashedAnchor b := List.mem_append_right _ (mem_hashedBy.2 hy)
    exact .inr (collides_append memA memB equal rfl rfl hashes)

/-- **As many streams that leave one nonce have one root and the same descriptors, or there is a
collision** among what was hashed along them. -/
theorem Lineage.same_or_collides (line : Lineage H root as nonce) (line' : Lineage H root' bs nonce)
    (sizedA : ∀ a ∈ as, a.descriptor.IsSized) (sizedB : ∀ b ∈ bs, b.descriptor.IsSized)
    (count : as.length = bs.length) :
    (root = root' ∧ as.map StreamAnchor.descriptor = bs.map StreamAnchor.descriptor) ∨
      Collides H (hashedLine as ++ hashedLine bs) := by
  -- from the nonce at the end back to the roots: while no collision is found, the last streams have
  -- one descriptor and are anchored to one nonce
  induction as using List.reverseRecOn generalizing bs nonce with
  | nil =>
    obtain rfl := List.length_eq_zero_iff.1 count.symm
    exact .inl ⟨line.threads.root_of_nil.symm.trans line'.threads.root_of_nil, rfl⟩
  | append_singleton as a ih =>
    rcases List.eq_nil_or_concat bs with rfl | ⟨bs, b, rfl⟩
    · simp at count
    · rw [List.concat_eq_append] at line' sizedB count ⊢
      obtain ⟨front, digest, follows⟩ := concat_iff.1 line
      obtain ⟨front', digest', follows'⟩ := concat_iff.1 line'
      have hashedLast : ∀ c cs, hashedLine (cs ++ [c]) = hashedLine cs ++ hashedAnchor c :=
        fun c cs => by simp [hashedLine]
      rw [hashedLast, hashedLast]
      obtain ⟨anchor, descriptor⟩ | collides := same_anchor_or_collides (sizedA a (by simp))
        (sizedB b (by simp)) digest digest' follows follows'
      · rw [anchor] at front
        refine (ih front front' (fun c hc => sizedA c (by simp [hc]))
          (fun c hc => sizedB c (by simp [hc])) (by simpa using count)).imp ?_ fun collides => ?_
        · rintro ⟨roots, descriptors⟩
          exact ⟨roots, by simp [descriptors, descriptor]⟩
        · exact collides.mono_append (fun _ => List.mem_append_left _)
            fun _ => List.mem_append_left _
      · exact .inr (collides.mono_append (fun _ => List.mem_append_right _)
          fun _ => List.mem_append_right _)

end SealedLog

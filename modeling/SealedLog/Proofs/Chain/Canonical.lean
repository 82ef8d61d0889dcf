import SealedLog.Proofs.Chain.Preimage

/-!
# Canonical octets are read in one way

A descriptor and a link are told apart by the head of their first field: a text for a descriptor, an
integer for a link. So octets that start with the canonical octets of one of them say which of the
two they start with, which value it is, and where it ends.

* `Coded`: a descriptor or a link, with its canonical octets;
* `Coded.octets_append_inj`: what starts with canonical octets determines the value in front;
* `Coded.flatMap_octets_inj`: so that a sequence of values is determined by their octets in a row;
* `canonical_determines`: the same of the functions that take the octets, which never fail.
-/

namespace SealedLog

open Cbor

namespace Cbor

/-- An integer has a head of major 0 or 1 and nothing behind it. -/
theorem Integer.exists_head (n : Integer) :
    ∃ major arg, major < 2 ∧ n.encode = Head.encode major arg := by
  by_cases sign : 0 ≤ n.val
  · exact ⟨0, _, by omega, if_pos sign⟩
  · exact ⟨1, _, by omega, if_neg sign⟩

/-- Nothing starts both with a text and with an integer. -/
theorem encodeText_append_ne (text : String) (n : Integer) (x y : Bytes) :
    encodeText text ++ x ≠ n.encode ++ y := by
  intro h
  obtain ⟨major, arg, small, head⟩ := n.exists_head
  rw [head, encodeText, List.append_assoc] at h
  obtain ⟨same, -⟩ := Head.encode_append_inj (by omega) (by omega) h
  omega

/-- Fields that differ in the front of the first one differ. -/
theorem fields_append_ne {a b c a' b' c' x y : Bytes} (h : ∀ s t, a ++ s ≠ a' ++ t) :
    fields a b c ++ x ≠ fields a' b' c' ++ y := by
  intro same
  simp only [fields, List.cons_append, List.append_assoc, List.cons.injEq, true_and] at same
  exact h _ _ same

end Cbor

/-- Nothing starts both with a descriptor and with a link. -/
theorem StreamDescriptor.octets_append_ne (d : StreamDescriptor) (l : Link) (x y : Bytes) :
    d.octets ++ x ≠ l.octets ++ y :=
  fields_append_ne (encodeText_append_ne _ _)

/-- What has canonical octets. -/
inductive Coded
  | descriptor (d : StreamDescriptor)
  | link (l : Link)
  deriving DecidableEq

namespace Coded

/-- The canonical octets of the value. -/
def octets : Coded → Bytes
  | descriptor d => d.octets
  | link l => l.octets

/-- The lengths in the value fit into a head. -/
def IsSized : Coded → Prop
  | descriptor d => d.IsSized
  | link l => l.payload.length < 2 ^ 64

/-- A value is determined by what starts with its octets. -/
theorem octets_append_inj {a b : Coded} {x y : Bytes} (ha : a.IsSized) (hb : b.IsSized)
    (h : a.octets ++ x = b.octets ++ y) : a = b ∧ x = y := by
  cases a with
  | descriptor d =>
    cases b with
    | descriptor e =>
      obtain ⟨rfl, rest⟩ := StreamDescriptor.octets_append_inj ha hb h
      exact ⟨rfl, rest⟩
    | link l => exact absurd h (d.octets_append_ne l x y)
  | link l =>
    cases b with
    | descriptor d => exact absurd h.symm (d.octets_append_ne l y x)
    | link k =>
      obtain ⟨rfl, rest⟩ := Link.octets_append_inj ha hb h
      exact ⟨rfl, rest⟩

theorem octets_ne_nil (a : Coded) : a.octets ≠ [] := by
  cases a <;> exact List.cons_ne_nil _ _

/-- A sequence of values is determined by their octets in a row. -/
theorem flatMap_octets_inj {as bs : List Coded} (ha : ∀ a ∈ as, a.IsSized)
    (hb : ∀ b ∈ bs, b.IsSized) (h : as.flatMap octets = bs.flatMap octets) : as = bs := by
  induction as generalizing bs with
  | nil =>
    cases bs with
    | nil => rfl
    | cons b bs =>
      rw [List.flatMap_nil, List.flatMap_cons] at h
      exact absurd (List.append_eq_nil_iff.1 h.symm).1 b.octets_ne_nil
  | cons a as ih =>
    cases bs with
    | nil =>
      rw [List.flatMap_nil, List.flatMap_cons] at h
      exact absurd (List.append_eq_nil_iff.1 h).1 a.octets_ne_nil
    | cons b bs =>
      rw [List.flatMap_cons, List.flatMap_cons] at h
      rw [List.forall_mem_cons] at ha hb
      obtain ⟨rfl, rest⟩ := octets_append_inj ha.1 hb.1 h
      rw [ih ha.2 hb.2 rest]

end Coded

/-- **Canonical octets are read in one way.** Every descriptor and every link has canonical octets.
Octets that start with those of a link determine the link and what follows, for any payload whose
length fits into a head; the same holds of descriptors whose texts fit. And neither a descriptor nor
a link is written with octets that the other is written with the beginning of. -/
theorem canonical_determines :
    (∀ d : StreamDescriptor, ∃ octets, d.canonical = .ok octets) ∧
    (∀ l : Link, ∃ octets, l.canonical = .ok octets) ∧
    (∀ (a b : Link) (octets octets' x y : Bytes), a.payload.length < 2 ^ 64 →
      b.payload.length < 2 ^ 64 → a.canonical = .ok octets → b.canonical = .ok octets' →
      octets ++ x = octets' ++ y → a = b ∧ x = y) ∧
    (∀ (a b : StreamDescriptor) (octets octets' x y : Bytes), a.IsSized → b.IsSized →
      a.canonical = .ok octets → b.canonical = .ok octets' →
      octets ++ x = octets' ++ y → a = b ∧ x = y) ∧
    ∀ (d : StreamDescriptor) (l : Link) (octets octets' : Bytes), d.canonical = .ok octets →
      l.canonical = .ok octets' → ¬octets <+: octets' ∧ ¬octets' <+: octets := by
  refine ⟨fun d => ⟨_, d.canonical_eq⟩, fun l => ⟨_, l.canonical_eq⟩, ?_, ?_, ?_⟩
  · intro a b octets octets' x y ha hb hA hB h
    obtain rfl := Except.ok.inj (a.canonical_eq.symm.trans hA)
    obtain rfl := Except.ok.inj (b.canonical_eq.symm.trans hB)
    exact Link.octets_append_inj ha hb h
  · intro a b octets octets' x y ha hb hA hB h
    obtain rfl := Except.ok.inj (a.canonical_eq.symm.trans hA)
    obtain rfl := Except.ok.inj (b.canonical_eq.symm.trans hB)
    exact StreamDescriptor.octets_append_inj ha hb h
  · intro d l octets octets' hd hl
    obtain rfl := Except.ok.inj (d.canonical_eq.symm.trans hd)
    obtain rfl := Except.ok.inj (l.canonical_eq.symm.trans hl)
    constructor
    · rintro ⟨rest, h⟩
      exact d.octets_append_ne l rest [] (h.trans (List.append_nil _).symm)
    · rintro ⟨rest, h⟩
      exact d.octets_append_ne l [] rest ((List.append_nil _).trans h.symm)

/-- Octets that a link and one more octet are read from in one way; octets that a descriptor of
empty texts and NUL is read from in one way; and neither starts the other. -/
theorem canonical_determines_read :
    (∃! p : Link × Bytes, p.1.payload.length < 2 ^ 64 ∧ ∃ octets, p.1.canonical = .ok octets ∧
      octets ++ p.2 = [0xa3, 0, 0x20, 1, 1, 2, 0x41, 5, 9]) ∧
    (∃! p : StreamDescriptor × Bytes, p.1.IsSized ∧ ∃ octets, p.1.canonical = .ok octets ∧
      octets ++ p.2 = [0xa3, 0, 0x60, 1, 0x61, 0, 2, 0x60]) ∧
    ¬(StreamDescriptor.mk "" "\x00" "").octets <+: (Link.mk (-1) ⟨1⟩ [5]).octets := by
  refine ⟨⟨(Link.mk (-1) ⟨1⟩ [5], [9]), ⟨by decide, _, Link.canonical_eq _, by decide⟩, ?_⟩,
    ⟨(StreamDescriptor.mk "" "\x00" "", []),
      ⟨⟨by decide, by decide, by decide⟩, _, StreamDescriptor.canonical_eq _, by decide⟩, ?_⟩, ?_⟩
  · rintro ⟨l, rest⟩ ⟨sized, octets, canonical, read⟩
    have whole : octets ++ rest = (Link.mk (-1) ⟨1⟩ [5]).octets ++ [9] := read.trans (by decide)
    obtain ⟨rfl, rfl⟩ := canonical_determines.2.2.1 _ _ _ _ _ _ sized (by decide) canonical
      (Link.canonical_eq _) whole
    rfl
  · rintro ⟨d, rest⟩ ⟨sized, octets, canonical, read⟩
    have whole : octets ++ rest = (StreamDescriptor.mk "" "\x00" "").octets ++ [] :=
      read.trans (by decide)
    obtain ⟨rfl, rfl⟩ := canonical_determines.2.2.2.1 _ _ _ _ _ _ sized
      ⟨by decide, by decide, by decide⟩ canonical (StreamDescriptor.canonical_eq _) whole
    rfl
  · exact (canonical_determines.2.2.2.2 _ _ _ _ (StreamDescriptor.canonical_eq _)
      (Link.canonical_eq _)).1

end SealedLog

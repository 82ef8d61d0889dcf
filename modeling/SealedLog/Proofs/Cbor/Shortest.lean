import Mathlib.Algebra.Ring.Int.Defs
import Mathlib.Data.List.Induction
import SealedLog.Proofs.Cbor.Head

/-!
# Integers have the shortest heads

One argument stands in heads of several lengths. An integer gets the shortest of them, and every
number on the way there fits where it is put.

* `Bytes.ofBigEndian_lt`, `Bytes.bigEndian_ofBigEndian`: octets are the digits of their number;
* `Head.Form`: the heads of a major type and an argument, short and long;
* `Head.decode?_eq_some_iff`: what is read is one of these heads;
* `Head.form_encode`, `Head.Form.eq_or_longer`: the head that is written is one of them, and all
  others are longer;
* `Integer.encode_exact`: integers are written exactly, in the shortest way and in no other.
-/

namespace SealedLog

namespace Bytes

theorem ofBigEndian_lt (bytes : Bytes) : ofBigEndian bytes < 256 ^ bytes.length := by
  induction bytes using List.reverseRecOn with
  | nil => decide
  | append_singleton bytes b ih =>
    have octet := b.toNat_lt
    rw [ofBigEndian_concat, List.length_append, List.length_singleton, Nat.pow_succ]
    omega

/-- Octets are the digits of the number that they denote. -/
theorem bigEndian_ofBigEndian (bytes : Bytes) :
    bigEndian bytes.length (ofBigEndian bytes) = bytes := by
  induction bytes using List.reverseRecOn with
  | nil => rfl
  | append_singleton bytes b ih =>
    have octet := b.toNat_lt
    have front : (256 * ofBigEndian bytes + b.toNat) / 256 = ofBigEndian bytes := by omega
    have last : UInt8.ofNat (256 * ofBigEndian bytes + b.toNat) = b := by
      rw [← UInt8.toNat_inj, UInt8.toNat_ofNat']
      omega
    rw [ofBigEndian_concat, List.length_append, List.length_singleton, bigEndian, front, ih, last]

end Bytes

namespace Cbor

namespace Head

/-- The heads of a major type and an argument. The upper three bits of the first octet are the major
type; the five below are the argument, or say in how many octets it follows, the most significant
first. -/
inductive Form (major : Nat) : Nat → Bytes → Prop
  | short {first : UInt8} {n : Nat} (lt : n < 24) (lead : first.toNat = 32 * major + n) :
    Form major n [first]
  | long {first : UInt8} {k : Nat} {digits : Bytes} (lt : k < 4)
      (lead : first.toNat = 32 * major + (24 + k)) (length : digits.length = 2 ^ k) :
    Form major (Bytes.ofBigEndian digits) (first :: digits)

/-- The lower five bits of a first octet are an argument below 24, or stand for one octet, two, four
or eight. -/
theorem extra?_eq_some_iff {info width : Nat} : extra? info = some width ↔
    info < 24 ∧ width = 0 ∨ ∃ k < 4, info = 24 + k ∧ width = 2 ^ k := by
  constructor
  · intro h
    unfold extra? at h
    split_ifs at h with h0 h1 h2 h3 h4 <;> cases h
    · exact .inl ⟨h0, rfl⟩
    · exact .inr ⟨0, by omega, h1, rfl⟩
    · exact .inr ⟨1, by omega, h2, rfl⟩
    · exact .inr ⟨2, by omega, h3, rfl⟩
    · exact .inr ⟨3, by omega, h4, rfl⟩
  · rintro (⟨lt, rfl⟩ | ⟨k, lt, rfl, rfl⟩)
    · exact if_pos lt
    · obtain rfl | rfl | rfl | rfl : k = 0 ∨ k = 1 ∨ k = 2 ∨ k = 3 := by omega
      all_goals rfl

theorem lead_of_toNat {first : UInt8} {major info : Nat} (h : first.toNat = 32 * major + info) :
    first = lead major info := by
  rw [lead, ← h, UInt8.ofNat_toNat]

/-- A first octet that stands for some octets is read together with these. -/
theorem decode?_long {first : UInt8} {major k : Nat} {digits : Bytes} (rest : Bytes) (lt : k < 4)
    (lead : first.toNat = 32 * major + (24 + k)) (length : digits.length = 2 ^ k) :
    decode? (first :: digits ++ rest) = some (major, Bytes.ofBigEndian digits, rest) := by
  have octet := first.toNat_lt
  have width : 2 ^ k = 2 ^ k - 1 + 1 := by
    have := Nat.two_pow_pos k
    omega
  have extra : extra? (24 + k) = some (2 ^ k - 1 + 1) :=
    extra?_eq_some_iff.2 (.inr ⟨k, lt, rfl, width.symm⟩)
  rw [lead_of_toNat lead]
  exact decode?_lead_append (2 ^ k - 1) rest (by omega) (by omega) extra (length.trans width)

/-- **What is read is a head, and what follows it.** -/
theorem decode?_eq_some_iff {bytes rest : Bytes} {major n : Nat} :
    decode? bytes = some (major, n, rest) ↔ ∃ head, Form major n head ∧ bytes = head ++ rest := by
  constructor
  · intro h
    cases bytes with
    | nil => cases h
    | cons first behind =>
      have split : first.toNat = 32 * (first.toNat / 32) + first.toNat % 32 := by omega
      rw [decode?] at h
      split at h
      · cases h
      · next none =>
        cases h
        obtain ⟨lt, -⟩ | ⟨k, -, -, width⟩ := extra?_eq_some_iff.1 none
        · exact ⟨[first], .short lt split, rfl⟩
        · exact absurd width (Nat.ne_of_lt (Nat.two_pow_pos k))
      · next width some =>
        split_ifs at h with enough
        cases h
        obtain ⟨-, none⟩ | ⟨k, lt, info, rfl⟩ := extra?_eq_some_iff.1 ‹_›
        · exact absurd none ‹_›
        · rw [info] at split
          refine ⟨first :: behind.take (2 ^ k), .long lt split ?_, ?_⟩
          · rw [List.length_take]
            omega
          · rw [List.cons_append, List.take_append_drop]
  · rintro ⟨head, form, rfl⟩
    cases form with
    | @short first _ lt lead =>
      have octet := first.toNat_lt
      rw [lead_of_toNat lead]
      exact decode?_short rest (by omega) lt
    | long lt lead length => exact decode?_long rest lt lead length

/-- The forms that arguments are written in. Nothing is written in a form that is longer than it
must be. -/
theorem encode_cases (major : Nat) (n : UInt64) :
    n.toNat < 24 ∧ encode major n = [lead major n.toNat] ∨
    24 ≤ n.toNat ∧ ∃ k < 4, n.toNat < 256 ^ 2 ^ k ∧ (∀ j < k, 256 ^ 2 ^ j ≤ n.toNat) ∧
      encode major n = lead major (24 + k) :: Bytes.bigEndian (2 ^ k) n.toNat := by
  have bound := n.toNat_lt
  simp only [encode, UInt64.lt_iff_toNat_lt, UInt64.le_iff_toNat_le, UInt64.reduceToNat]
  split_ifs with h0 h1 h2 h4
  · exact .inl ⟨h0, rfl⟩
  · exact .inr ⟨by omega, 0, by omega, by omega, fun j lt => absurd lt (by omega), rfl⟩
  · refine .inr ⟨by omega, 1, by omega, by omega, fun j lt => ?_, rfl⟩
    obtain rfl : j = 0 := by omega
    omega
  · refine .inr ⟨by omega, 2, by omega, by omega, fun j lt => ?_, rfl⟩
    obtain rfl | rfl : j = 0 ∨ j = 1 := by omega
    all_goals omega
  · refine .inr ⟨by omega, 3, by omega, by omega, fun j lt => ?_, rfl⟩
    obtain rfl | rfl | rfl : j = 0 ∨ j = 1 ∨ j = 2 := by omega
    all_goals omega

/-- The head that is written is one of its major type and its argument. -/
theorem form_encode {major : Nat} (hm : major < 8) (n : UInt64) :
    Form major n.toNat (encode major n) := by
  obtain ⟨lt, short⟩ | ⟨-, k, lt, fits, -, long⟩ := encode_cases major n
  · rw [short]
    exact .short lt (toNat_lead hm (by omega))
  · have form := Form.long lt (toNat_lead hm (by omega))
      (Bytes.length_bigEndian (2 ^ k) n.toNat)
    rwa [Bytes.ofBigEndian_bigEndian fits, ← long] at form

/-- **All other heads of an argument are longer than the one that is written.** -/
theorem Form.eq_or_longer {major : Nat} {n : UInt64} {head : Bytes}
    (form : Form major n.toNat head) :
    head = encode major n ∨ (encode major n).length < head.length := by
  obtain ⟨small, short⟩ | ⟨large, k, -, fits, least, long⟩ := encode_cases major n
  all_goals generalize argument : n.toNat = arg at *
  all_goals cases form with
    | short lt lead => ?_
    | @long first j digits lt lead length => ?_
  · rw [short, lead_of_toNat lead]
    exact .inl rfl
  · have := Nat.two_pow_pos j
    rw [short, List.length_singleton, List.length_cons]
    exact .inr (by omega)
  · omega
  · have enough := Bytes.ofBigEndian_lt digits
    rw [length] at enough
    rw [long, List.length_cons, List.length_cons, Bytes.length_bigEndian, length]
    rcases Nat.lt_trichotomy k j with lt | rfl | gt
    · have := Nat.pow_lt_pow_right (a := 2) (by omega) lt
      exact .inr (by omega)
    · rw [← length, Bytes.bigEndian_ofBigEndian, lead_of_toNat lead]
      exact .inl rfl
    · have := least j gt
      omega

end Head

namespace Integer

/-- The major type of an integer. -/
def major (n : Integer) : Nat := if 0 ≤ n.val then 0 else 1

/-- The argument in the head of an integer, without a bound. -/
def argument (n : Integer) : Nat := if 0 ≤ n.val then n.val.toNat else (-1 - n.val).toNat

theorem encode_eq (n : Integer) : n.encode = Head.encode n.major (UInt64.ofNat n.argument) := by
  unfold encode major argument
  split_ifs <;> rfl

theorem major_lt (n : Integer) : n.major < 8 := by
  unfold major
  split <;> decide

theorem toNat_argument (n : Integer) : (UInt64.ofNat n.argument).toNat = n.argument := by
  have low := n.le_val
  have high := n.val_lt
  have fits : n.argument < 2 ^ 64 := by
    unfold argument
    split_ifs <;> omega
  exact UInt64.toNat_ofNat_of_lt' fits

/-- What an integer is read from starts with a head of its major type and argument. -/
theorem form_of_decode? {n : Integer} {bytes rest : Bytes}
    (h : decode? bytes = some (n.val, rest)) :
    ∃ head, Head.Form n.major n.argument head ∧ bytes = head ++ rest := by
  rw [← Head.decode?_eq_some_iff]
  unfold decode? at h
  unfold major argument
  split at h
  · next arg behind read =>
    obtain ⟨value, rfl⟩ := Prod.mk.inj (Option.some.inj h)
    have sign : 0 ≤ n.val := by omega
    have same : n.val.toNat = arg := by omega
    rw [if_pos sign, if_pos sign, same, read]
  · next arg behind read =>
    obtain ⟨value, rfl⟩ := Prod.mk.inj (Option.some.inj h)
    have sign : ¬0 ≤ n.val := by omega
    have same : (-1 - n.val).toNat = arg := by omega
    rw [if_neg sign, if_neg sign, same, read]
  · cases h

/-- Every number on the way to the head of an integer fits where it is put. -/
structure Fits (n : Integer) : Prop where
  /-- What the head of a negative integer holds is reckoned in 128 bits, signed, -/
  difference : -2 ^ 127 ≤ -1 - n.val ∧ -1 - n.val < 2 ^ 127
  /-- the argument is taken into 64 bits, unsigned, -/
  argument : (UInt64.ofNat n.argument).toNat = n.argument
  /-- and its octets denote all of it, behind a first octet without a carry. -/
  head : Head.Form n.major n.argument n.encode

theorem fits (n : Integer) : n.Fits where
  difference := by
    have low := n.le_val
    have high := n.val_lt
    omega
  argument := n.toNat_argument
  head := by
    have form := Head.form_encode n.major_lt (UInt64.ofNat n.argument)
    rwa [n.toNat_argument, ← n.encode_eq] at form

/-- **Integers are written exactly, in the shortest way and in no other.** Nothing overflows on the
way to the head of an integer. The integer is read back from its head, whatever follows; all other
heads that it is read from are longer; and no integer is written as the beginning of another. -/
theorem encode_exact (n : Integer) :
    n.Fits ∧
    (∀ rest, decode? (n.encode ++ rest) = some (n.val, rest)) ∧
    (∀ bytes rest, decode? bytes = some (n.val, rest) →
      ∃ head, bytes = head ++ rest ∧ (head = n.encode ∨ n.encode.length < head.length)) ∧
    ∀ m : Integer, m.encode <+: n.encode → m = n := by
  refine ⟨n.fits, n.decode?_encode_append, fun bytes rest read => ?_, fun m => ?_⟩
  · obtain ⟨head, form, same⟩ := form_of_decode? read
    rw [← n.toNat_argument] at form
    exact ⟨head, same, n.encode_eq ▸ form.eq_or_longer⟩
  · rintro ⟨rest, same⟩
    exact (encode_append_inj (same.trans (List.append_nil _).symm)).1

/-- The least of the numbers of 64 bits, and the least integer that has a head. -/
example :
    (ofInt64 Int64.minValue).encode = [0x3b, 0x7f, 0xff, 0xff, 0xff, 0xff, 0xff, 0xff, 0xff] ∧
      (Integer.mk (-18446744073709551616) (by decide) (by decide)).encode =
        [0x3b, 0xff, 0xff, 0xff, 0xff, 0xff, 0xff, 0xff, 0xff] := by
  decide

end Integer

end Cbor

end SealedLog

import Mathlib.Algebra.Ring.Nat
import Mathlib.Tactic.SplitIfs
import SealedLog.Cbor.Head

/-!
# Heads and integers are read back

What follows a head or an integer does not matter for reading it. So no head and no integer is the
beginning of another one.

* `Bytes.ofBigEndian_bigEndian`: digits in base 256 denote the number that they were taken from;
* `Head.decode?_encode_append`, `Integer.decode?_encode_append`: reading back;
* `Head.encode_append_inj`, `Integer.encode_append_inj`: what was written is determined.
-/

namespace SealedLog

namespace Bytes

@[simp] theorem ofBigEndian_concat (bytes : Bytes) (b : UInt8) :
    ofBigEndian (bytes ++ [b]) = 256 * ofBigEndian bytes + b.toNat := by
  simp [ofBigEndian]

/-- A number is denoted by its digits, if there are enough of them. -/
theorem ofBigEndian_bigEndian {width n : Nat} (h : n < 256 ^ width) :
    ofBigEndian (bigEndian width n) = n := by
  induction width generalizing n with
  | zero =>
    rw [Nat.pow_zero] at h
    obtain rfl : n = 0 := by omega
    rfl
  | succ width ih =>
    have shorter : n / 256 < 256 ^ width := by
      rw [Nat.pow_succ] at h
      omega
    rw [bigEndian, ofBigEndian_concat, ih shorter, UInt8.toNat_ofNat']
    omega

end Bytes

namespace Cbor

namespace Head

theorem toNat_lead {major info : Nat} (hm : major < 8) (hi : info < 32) :
    (lead major info).toNat = 32 * major + info := by
  rw [lead, UInt8.toNat_ofNat']
  omega

/-- A first octet that says how many octets follow is read together with these. -/
theorem decode?_lead_append {major info : Nat} {octets : Bytes} (width : Nat) (rest : Bytes)
    (hm : major < 8) (hi : info < 32) (extra : extra? info = some (width + 1))
    (len : octets.length = width + 1) :
    decode? (lead major info :: octets ++ rest) = some (major, Bytes.ofBigEndian octets, rest) := by
  have major_eq : (32 * major + info) / 32 = major := by omega
  have info_eq : (32 * major + info) % 32 = info := by omega
  rw [List.cons_append, decode?, toNat_lead hm hi]
  simp only [major_eq, info_eq, extra]
  rw [if_pos (by rw [List.length_append]; omega), ← len, List.take_left, List.drop_left]

theorem decode?_short {major info : Nat} (rest : Bytes) (hm : major < 8) (hi : info < 24) :
    decode? (lead major info :: rest) = some (major, info, rest) := by
  have major_eq : (32 * major + info) / 32 = major := by omega
  have info_eq : (32 * major + info) % 32 = info := by omega
  have extra : extra? info = some 0 := if_pos hi
  rw [decode?, toNat_lead hm (by omega)]
  simp only [major_eq, info_eq, extra]

/-- A head is read back, whatever follows it. -/
theorem decode?_encode_append {major : Nat} (hm : major < 8) (n : UInt64) (rest : Bytes) :
    decode? (encode major n ++ rest) = some (major, n.toNat, rest) := by
  -- the digits of each form are as many as its bound allows
  have digits : ∀ width, n.toNat < 256 ^ width →
      Bytes.ofBigEndian (Bytes.bigEndian width n.toNat) = n.toNat :=
    fun width h => Bytes.ofBigEndian_bigEndian h
  unfold encode
  split_ifs with h0 h1 h2 h4
  · have small : n.toNat < 24 := h0
    exact decode?_short rest hm small
  · have small : n.toNat ≤ 0xff := h1
    rw [decode?_lead_append 0 rest hm (by omega) rfl (Bytes.length_bigEndian ..),
      digits 1 (by omega)]
  · have small : n.toNat ≤ 0xffff := h2
    rw [decode?_lead_append 1 rest hm (by omega) rfl (Bytes.length_bigEndian ..),
      digits 2 (by omega)]
  · have small : n.toNat ≤ 0xffffffff := h4
    rw [decode?_lead_append 3 rest hm (by omega) rfl (Bytes.length_bigEndian ..),
      digits 4 (by omega)]
  · rw [decode?_lead_append 7 rest hm (by omega) rfl (Bytes.length_bigEndian ..),
      digits 8 (by have := n.toNat_lt; omega)]

/-- Heads are determined by what starts with them. -/
theorem encode_append_inj {major major' : Nat} (hm : major < 8) (hm' : major' < 8) {n n' : UInt64}
    {x y : Bytes} (h : encode major n ++ x = encode major' n' ++ y) :
    major = major' ∧ n = n' ∧ x = y := by
  have read := decode?_encode_append hm n x
  rw [h, decode?_encode_append hm' n' y] at read
  obtain ⟨same, rest⟩ := Prod.mk.inj (Option.some.inj read)
  obtain ⟨value, rest⟩ := Prod.mk.inj rest
  exact ⟨same.symm, UInt64.toNat_inj.1 value.symm, rest.symm⟩

end Head

namespace Integer

/-- An integer is read back, whatever follows it. -/
theorem decode?_encode_append (n : Integer) (rest : Bytes) :
    decode? (n.encode ++ rest) = some (n.val, rest) := by
  have low := n.le_val
  have high := n.val_lt
  unfold encode decode?
  split_ifs with sign
  · rw [Head.decode?_encode_append (by omega)]
    have value : ((UInt64.ofNat n.val.toNat).toNat : Int) = n.val := by
      rw [UInt64.toNat_ofNat']
      omega
    simp only [value]
  · rw [Head.decode?_encode_append (by omega)]
    have value : -1 - ((UInt64.ofNat (-1 - n.val).toNat).toNat : Int) = n.val := by
      rw [UInt64.toNat_ofNat']
      omega
    simp only [value]

/-- Integers are determined by what starts with them. -/
theorem encode_append_inj {a b : Integer} {x y : Bytes} (h : a.encode ++ x = b.encode ++ y) :
    a = b ∧ x = y := by
  have read := decode?_encode_append a x
  rw [h, decode?_encode_append b y] at read
  obtain ⟨value, rest⟩ := Prod.mk.inj (Option.some.inj read)
  exact ⟨Integer.ext value.symm, rest.symm⟩

theorem ofInt64_injective : Function.Injective ofInt64 :=
  fun _ _ h => Int64.toInt_inj.1 (congrArg Integer.val h)

end Integer

end Cbor

end SealedLog

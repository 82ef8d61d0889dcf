import Mathlib.Tactic.SplitIfs
import SealedLog.Json.Decimal
import SealedLog.Json.Quoted

/-!
# Numbers and strings as they are written

An integer is read back from its digits, and a text from the units in which it is written.

* `Decimal.digits_eq_cons`: the digits of a number begin with no needless zero;
* `Decimal.parse?_render`: an integer is read back;
* `Json.Quoted.ofOctet_cases`: how the octets of a text are written;
* `Json.Quoted.text?_ofText`: a text is read back.
-/

namespace SealedLog

namespace Decimal

variable {m n : Nat} {octet : UInt8}

theorem toNat_digit (h : n < 10) : (digit n).toNat = 48 + n := by
  rw [digit, UInt8.toNat_ofNat']
  omega

theorem digits_of_lt (h : n < 10) : digits n = [digit n] := by
  rw [digits, if_pos h]

theorem digits_of_le (h : 10 ≤ n) : digits n = digits (n / 10) ++ [digit (n % 10)] := by
  rw [digits, if_neg (by omega)]

/-- A digit is an octet from `0` to `9`; that of a number above zero is not `0`. -/
theorem digit_mem (h : n < 10) : 48 ≤ digit n ∧ digit n ≤ 57 ∧ (0 < n → 49 ≤ digit n) := by
  simp only [UInt8.le_iff_toNat_le, toNat_digit h]
  exact ⟨Nat.le_add_right .., Nat.add_le_add_left (Nat.le_of_lt_succ h) 48,
    fun pos => Nat.add_le_add_left pos 48⟩

/-- The digits of a number above zero begin with one that is not `0`. -/
theorem digits_eq_cons (pos : 0 < n) : ∃ first rest, digits n = first :: rest ∧
    49 ≤ first ∧ first ≤ 57 ∧ ∀ octet ∈ rest, 48 ≤ octet ∧ octet ≤ 57 := by
  induction n using digits.induct with
  | case1 n small =>
    obtain ⟨-, high, low⟩ := digit_mem small
    exact ⟨_, [], digits_of_lt small, low pos, high, fun _ h => nomatch h⟩
  | case2 n large ih =>
    obtain ⟨first, rest, split, low, high, others⟩ := ih (by omega)
    obtain ⟨low', high', -⟩ := digit_mem (Nat.mod_lt n (by omega : 10 > 0))
    refine ⟨first, rest ++ [digit (n % 10)], ?_, low, high, fun octet h => ?_⟩
    · rw [digits_of_le (by omega), split, List.cons_append]
    · rcases List.mem_append.1 h with inside | last
      · exact others octet inside
      · rw [List.mem_singleton.1 last]
        exact ⟨low', high'⟩

theorem valueFrom_append (m : Nat) (front back : Bytes) :
    valueFrom m (front ++ back) = (valueFrom m front).bind fun n => valueFrom n back := by
  induction front generalizing m with
  | nil => rfl
  | cons octet front ih =>
    rw [List.cons_append, valueFrom, valueFrom]
    split_ifs
    · exact ih _
    · rfl

theorem valueFrom_digit (m : Nat) (h : n < 10) : valueFrom m [digit n] = some (10 * m + n) := by
  obtain ⟨low, high, -⟩ := digit_mem h
  rw [valueFrom, if_pos ⟨low, high⟩, valueFrom, toNat_digit h]
  congr 1
  omega

/-- Digits denote their number. -/
theorem valueFrom_digits (n : Nat) : valueFrom 0 (digits n) = some n := by
  induction n using digits.induct with
  | case1 n small =>
    rw [digits_of_lt small, valueFrom_digit 0 small]
    congr 1
    omega
  | case2 n large ih =>
    rw [digits_of_le (by omega), valueFrom_append, ih, Option.bind_some,
      valueFrom_digit _ (Nat.mod_lt n (by omega))]
    congr 1
    omega

theorem value?_digits (n : Nat) : value? (digits n) = some n := by
  have value := valueFrom_digits n
  cases h : digits n with
  | nil =>
    rw [digits] at h
    split_ifs at h
    simp at h
  | cons octet rest => rwa [h] at value

/-- **An integer is read back from its digits.** -/
theorem parse?_render (n : Int) : parse? (render n) = some n := by
  cases n with
  | negSucc n => simp only [render, parse?, value?_digits]
  | ofNat n =>
    have unsigned : ∀ rest, digits n ≠ 45 :: rest := by
      intro rest h
      rcases Nat.eq_zero_or_pos n with rfl | pos
      · rw [digits_of_lt (by omega)] at h
        exact absurd (List.cons.inj h).1 (by decide)
      · obtain ⟨first, _, split, low, -⟩ := digits_eq_cons pos
        rw [split] at h
        rw [(List.cons.inj h).1] at low
        exact absurd low (by decide)
    rw [render, parse?]
    · rw [value?_digits]
      rfl
    · exact unsigned

end Decimal

theorem Bytes.toText?_ofText (text : String) : (Bytes.ofText text).toText? = some text := by
  unfold toText? ofText
  exact dif_pos text.isValidUTF8

namespace Json.Quoted

variable {octet : UInt8} {code : UInt16} {units : Quoted}

/-- An octet is written behind a backslash, by a number below that of all halves of pairs, or as it
is if it is neither a control character nor a quote or a backslash. -/
theorem ofOctet_cases (octet : UInt8) :
    ofOctet octet = .short octet ∧ TextUnit.ofLetter? (TextUnit.letter octet) = some octet ∨
      ofOctet octet = .unicode octet.toUInt16 ∧ octet < 32 ∨
      ofOctet octet = .raw octet ∧ 32 ≤ octet ∧ octet ≠ 34 ∧ octet ≠ 92 := by
  unfold ofOctet
  split_ifs with special control
  · refine .inl ⟨rfl, ?_⟩
    rcases special with rfl | rfl | rfl | rfl | rfl | rfl | rfl <;> decide
  · exact .inr (.inl ⟨rfl, control⟩)
  · refine .inr (.inr ⟨rfl, UInt8.not_lt.1 control, ?_, ?_⟩)
    · rintro rfl
      exact special (.inl rfl)
    · rintro rfl
      exact special (.inr (.inl rfl))

theorem isPaired_unicode (lead : isLead code = false) (trail : isTrail code = false) :
    isPaired (.unicode code :: units) = isPaired units := by
  cases units with
  | nil => simp [isPaired, lead, trail]
  | cons unit units => cases unit <;> simp [isPaired, lead, trail]

theorem octetsFrom_unicode (lead : isLead code = false) (done : Bytes) :
    octetsFrom done (.unicode code :: units) =
      octetsFrom ((codePointOctets code.toNat).reverse ++ done) units := by
  cases units with
  | nil => rfl
  | cons unit units => cases unit <;> simp [octetsFrom, lead]

/-- The number of a control character is that of no half of a pair, and denotes the character. -/
theorem control_cases (control : octet < 32) :
    isLead octet.toUInt16 = false ∧ isTrail octet.toUInt16 = false ∧
      codePointOctets octet.toUInt16.toNat = [octet] := by
  have small : octet.toNat < 32 := UInt8.lt_iff_toNat_lt.1 control
  have number : octet.toUInt16.toNat = octet.toNat := UInt8.toNat_toUInt16 octet
  have lead : (0xD800 : UInt16).toNat = 0xD800 := rfl
  have trail : (0xDC00 : UInt16).toNat = 0xDC00 := rfl
  refine ⟨?_, ?_, ?_⟩
  · rw [isLead, decide_eq_false_iff_not, UInt16.le_iff_toNat_le, number, lead]
    omega
  · rw [isTrail, decide_eq_false_iff_not, UInt16.le_iff_toNat_le, number, trail]
    omega
  · rw [number, codePointOctets, if_pos (by omega), UInt8.ofNat_toNat]

theorem isPlain_map (octets : Bytes) : isPlain (octets.map ofOctet) = true := by
  rw [isPlain, List.all_map, List.all_eq_true]
  intro octet _
  obtain ⟨h, -⟩ | ⟨h, -⟩ | ⟨h, plain, -⟩ := ofOctet_cases octet <;> rw [Function.comp_apply, h]
  exact decide_eq_true plain

theorem isPaired_map (octets : Bytes) : isPaired (octets.map ofOctet) = true := by
  induction octets with
  | nil => rfl
  | cons octet octets ih =>
    rw [List.map_cons]
    obtain ⟨h, -⟩ | ⟨h, control⟩ | ⟨h, -⟩ := ofOctet_cases octet <;> rw [h]
    · exact ih
    · obtain ⟨lead, trail, -⟩ := control_cases control
      rw [isPaired_unicode lead trail, ih]
    · exact ih

theorem octetsFrom_map (done octets : Bytes) :
    octetsFrom done (octets.map ofOctet) = done.reverse ++ octets := by
  induction octets generalizing done with
  | nil => exact (List.append_nil _).symm
  | cons octet octets ih =>
    have more : done.reverse ++ octet :: octets = (octet :: done).reverse ++ octets := by simp
    rw [List.map_cons, more, ← ih]
    obtain ⟨h, -⟩ | ⟨h, control⟩ | ⟨h, -⟩ := ofOctet_cases octet <;> rw [h]
    · rfl
    · obtain ⟨lead, -, denotes⟩ := control_cases control
      rw [octetsFrom_unicode lead, denotes]
      rfl
    · rfl

theorem octets_ofText (text : String) : octets (ofText text) = Bytes.ofText text :=
  octetsFrom_map [] _

/-- **A text is read back from the units in which it is written.** -/
@[simp] theorem text?_ofText (text : String) : (ofText text).text? = some text := by
  have octets := octets_ofText text
  unfold text?
  rw [octets, ofText, isPlain_map, isPaired_map]
  exact Bytes.toText?_ofText text

end Json.Quoted

end SealedLog

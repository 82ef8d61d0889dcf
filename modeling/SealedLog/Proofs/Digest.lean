import Mathlib.Data.List.Basic
import Mathlib.Tactic.SplitIfs
import SealedLog.Digest

/-!
# Digests in hexadecimal text

A text is read as a digest exactly if it has 64 hexadecimal digits, and the digest is the one that
is written as these digits in lower case. Any other text is refused for the first of three reasons:
its octets are odd in number, one of them is no digit, or there are not 64 of them.

* `Hex.IsDigit`, `Hex.IsDigitOctet`: the digits, as characters and as octets;
* `Hex.IsFirstBad`: the first octet that is no digit, with its index;
* `Hex.decodeFrom_digits`, `Hex.decodeFrom_of_isFirstBad`: what decoding answers;
* `Digest.Reading`, `Digest.ofHex_eq_iff`: the four outcomes, one of which every text has;
* `Digest.ofHex_exact`: which texts have which.
-/

namespace SealedLog

theorem toList_toLower (text : String) : text.toLower.toList = text.toList.map Char.toLower :=
  String.toList_map

/-- The UTF-8 form of a text is that of its characters. -/
theorem Bytes.ofText_eq (text : String) :
    ofText text = text.toList.flatMap String.utf8EncodeChar := by
  rw [ofText, String.toUTF8_eq_toByteArray, ← String.utf8Encode_toList, List.utf8Encode,
    List.data_toByteArray]

namespace Hex

variable {c : Char} {octet : UInt8} {octets : Bytes} {chars : List Char} {index : Nat}

/-- The hexadecimal digits, in either case. -/
def alphabet : String := "0123456789abcdefABCDEF"

/-- A character that is a hexadecimal digit. -/
def IsDigit (c : Char) : Prop := c ∈ alphabet.toList

/-- An octet that is a hexadecimal digit. -/
def IsDigitOctet (octet : UInt8) : Prop := octet ∈ Bytes.ofText alphabet

/-- This octet is no digit, stands at this index, and has only digits in front of it. -/
structure IsFirstBad (octets : Bytes) (index : Nat) (octet : UInt8) : Prop where
  there : octets[index]? = some octet
  bad : ¬ IsDigitOctet octet
  before : ∀ o ∈ octets.take index, IsDigitOctet o

/-! ### Digits -/

theorem ofText_alphabet : Bytes.ofText alphabet =
    [48, 49, 50, 51, 52, 53, 54, 55, 56, 57, 97, 98, 99, 100, 101, 102,
      65, 66, 67, 68, 69, 70] := by
  decide +kernel

/-- The digits are the octets that have a number. -/
theorem value?_eq_none_iff : value? octet = none ↔ ¬ IsDigitOctet octet := by
  have all : ∀ n < 256, value? (UInt8.ofNat n) = none ↔ UInt8.ofNat n ∉ Bytes.ofText alphabet := by
    rw [ofText_alphabet]
    decide +kernel
  have this := all octet.toNat octet.toNat_lt
  rwa [UInt8.ofNat_toNat] at this

/-- A digit takes one octet, whose number is below sixteen and is written as the digit in lower
case. -/
theorem IsDigit.encoded (digit : IsDigit c) : ∃ octet value, String.utf8EncodeChar c = [octet] ∧
    value? octet = some value ∧ value.toNat < 16 ∧ Hex.digit value.toNat = c.toLower := by
  have all : (alphabet.toList.all fun c =>
      String.utf8EncodeChar c == [UInt8.ofNat c.toNat] &&
        (value? (UInt8.ofNat c.toNat)).any
          fun v => decide (v.toNat < 16 ∧ Hex.digit v.toNat = c.toLower)) = true := by
    decide
  obtain ⟨one, written⟩ := Bool.and_eq_true_iff.1 (List.all_eq_true.1 all c digit)
  obtain ⟨value, reads, fits⟩ := (Option.any_eq_true ..).1 written
  exact ⟨_, value, eq_of_beq one, reads, of_decide_eq_true fits⟩

theorem isDigitOctet_of_mem (digit : IsDigit c) (mem : octet ∈ String.utf8EncodeChar c) :
    IsDigitOctet octet := by
  rw [IsDigitOctet, Bytes.ofText_eq]
  exact List.mem_flatMap.2 ⟨c, digit, mem⟩

/-- A character whose octets are digits is a digit: a longer form ends above all of them. -/
theorem isDigit_of_octets (h : ∀ o ∈ String.utf8EncodeChar c, IsDigitOctet o) : IsDigit c := by
  have low : ((Bytes.ofText alphabet).all fun o => decide (o.toNat < 128)) = true := by
    rw [ofText_alphabet]
    decide
  have ascii : ∀ n < 128, UInt8.ofNat n ∈ Bytes.ofText alphabet →
      Char.ofNat n ∈ alphabet.toList := by
    rw [ofText_alphabet]
    decide +kernel
  simp only [String.utf8EncodeChar] at h
  split_ifs at h with small
  · have there := ascii c.val.toNat (by omega) (h _ (by simp))
    rwa [show Char.ofNat c.val.toNat = c from Char.ofNat_toNat c] at there
  -- the last octet of a longer form is above 127
  all_goals
    have last := of_decide_eq_true
      (List.all_eq_true.1 low _ (h (UInt8.ofNat (c.val.toNat % 64 + 128)) (by simp)))
    rw [UInt8.toNat_ofNat'] at last
    omega

/-- A text is made of digits when its octets are. -/
theorem isDigit_iff_octets (text : String) :
    (∀ c ∈ text.toList, IsDigit c) ↔ ∀ o ∈ Bytes.ofText text, IsDigitOctet o := by
  rw [Bytes.ofText_eq]
  constructor
  · intro digits o mem
    obtain ⟨c, inside, mem⟩ := List.mem_flatMap.1 mem
    exact isDigitOctet_of_mem (digits c inside) mem
  · intro digits c inside
    exact isDigit_of_octets fun o mem => digits o (List.mem_flatMap.2 ⟨c, inside, mem⟩)

theorem length_of_digits (digits : ∀ c ∈ chars, IsDigit c) :
    (chars.flatMap String.utf8EncodeChar).length = chars.length := by
  induction chars with
  | nil => rfl
  | cons c chars ih =>
    obtain ⟨octet, -, one, -⟩ := (digits c List.mem_cons_self).encoded
    rw [List.flatMap_cons, one, List.singleton_append, List.length_cons, List.length_cons,
      ih fun d mem => digits d (List.mem_cons_of_mem c mem)]

/-! ### Writing -/

/-- The two digits of an octet. -/
def pair (octet : UInt8) : List Char := [digit (octet.toNat / 16), digit (octet.toNat % 16)]

theorem digit_inj {m n : Nat} (hm : m < 16) (hn : n < 16) (same : digit m = digit n) : m = n := by
  have all : ∀ m < 16, ∀ n < 16, digit m = digit n → m = n := by decide
  exact all m hm n hn same

theorem isDigit_digit {n : Nat} (h : n < 16) : IsDigit (digit n) ∧ (digit n).toLower = digit n := by
  have all : ∀ n < 16, digit n ∈ alphabet.toList ∧ (digit n).toLower = digit n := by decide
  exact all n h

theorem pair_inj {a b : UInt8} (same : pair a = pair b) : a = b := by
  have ha := a.toNat_lt
  have hb := b.toNat_lt
  rw [pair, pair, List.cons.injEq, List.cons.injEq] at same
  have high := digit_inj (by omega) (by omega) same.1
  have low := digit_inj (by omega) (by omega) same.2.1
  exact UInt8.toNat_inj.1 (by omega)

theorem encode_toList (octets : Bytes) : (encode octets).toList = octets.flatMap pair :=
  String.toList_ofList

theorem flatMap_pair_inj {a b : Bytes} (same : a.flatMap pair = b.flatMap pair) : a = b := by
  induction a generalizing b with
  | nil =>
    cases b with
    | nil => rfl
    | cons y b => cases same
  | cons x a ih =>
    cases b with
    | nil => cases same
    | cons y b =>
      rw [List.flatMap_cons, List.flatMap_cons] at same
      obtain ⟨first, rest⟩ := List.append_inj same rfl
      rw [pair_inj first, ih rest]

theorem length_flatMap_pair (octets : Bytes) :
    (octets.flatMap pair).length = 2 * octets.length := by
  induction octets with
  | nil => rfl
  | cons octet octets ih =>
    rw [List.flatMap_cons, List.length_append, ih, List.length_cons, pair]
    simp
    omega

theorem encode_injective : Function.Injective encode := by
  intro a b same
  refine flatMap_pair_inj ?_
  rw [← encode_toList, same, encode_toList]

/-- What is written has two digits for each octet, all in lower case. -/
theorem encode_digits (octets : Bytes) :
    (encode octets).length = 2 * octets.length ∧ (∀ c ∈ (encode octets).toList, IsDigit c) ∧
      (encode octets).toLower = encode octets := by
  have each : ∀ c ∈ (encode octets).toList, IsDigit c ∧ c.toLower = c := by
    rw [encode_toList]
    intro c mem
    obtain ⟨octet, -, mem⟩ := List.mem_flatMap.1 mem
    have bound := octet.toNat_lt
    rcases List.mem_pair.1 mem with rfl | rfl
    · exact isDigit_digit (by omega)
    · exact isDigit_digit (by omega)
  refine ⟨?_, fun c mem => (each c mem).1, ?_⟩
  · rw [← String.length_toList, encode_toList, length_flatMap_pair]
  · rw [← String.toList_inj, toList_toLower]
    have same : (encode octets).toList.map Char.toLower = (encode octets).toList.map id :=
      List.map_congr_left fun c mem => (each c mem).2
    rw [same, List.map_id]

/-! ### Reading -/

/-- Digits denote the octets that are written as these digits in lower case. -/
theorem decodeFrom_digits (chars : List Char) (index : Nat) (done : Bytes)
    (digits : ∀ c ∈ chars, IsDigit c) (even : chars.length % 2 = 0) :
    ∃ octets, decodeFrom index done (chars.flatMap String.utf8EncodeChar) =
      .ok (done.reverse ++ octets) ∧ octets.flatMap pair = chars.map Char.toLower := by
  match chars with
  | [] => exact ⟨[], by simp [decodeFrom], rfl⟩
  | [c] => simp at even
  | a :: b :: rest =>
    obtain ⟨high, m, aOne, aReads, aBelow, aWritten⟩ := (digits a (by simp)).encoded
    obtain ⟨low, n, bOne, bReads, bBelow, bWritten⟩ := (digits b (by simp)).encoded
    obtain ⟨octets, reads, written⟩ := decodeFrom_digits rest (index + 2) ((16 * m + n) :: done)
      (fun c mem => digits c (by simp [mem])) (by simpa [Nat.add_assoc] using even)
    have value : (16 * m + n).toNat = 16 * m.toNat + n.toNat := by
      rw [UInt8.toNat_add, UInt8.toNat_mul]
      show (16 * m.toNat % 256 + n.toNat) % 256 = _
      omega
    refine ⟨(16 * m + n) :: octets, ?_, ?_⟩
    · rw [List.flatMap_cons, List.flatMap_cons, aOne, bOne]
      show decodeFrom index done (high :: low :: rest.flatMap String.utf8EncodeChar) = _
      simp [decodeFrom, aReads, bReads, reads]
    · rw [List.flatMap_cons, written, pair, value, List.map_cons, List.map_cons, ← aWritten,
        ← bWritten, show (16 * m.toNat + n.toNat) / 16 = m.toNat by omega,
        show (16 * m.toNat + n.toNat) % 16 = n.toNat by omega]
      rfl

theorem isFirstBad_cons_iff {first : UInt8} : IsFirstBad (first :: octets) index octet ↔
    ¬ IsDigitOctet first ∧ index = 0 ∧ octet = first ∨
      IsDigitOctet first ∧ ∃ k, index = k + 1 ∧ IsFirstBad octets k octet := by
  constructor
  · rintro ⟨there, bad, before⟩
    cases index with
    | zero =>
      obtain rfl : first = octet := Option.some.inj there
      exact .inl ⟨bad, rfl, rfl⟩
    | succ k =>
      rw [List.take_succ_cons, List.forall_mem_cons] at before
      exact .inr ⟨before.1, k, rfl, there, bad, before.2⟩
  · rintro (⟨bad, rfl, rfl⟩ | ⟨digit, k, rfl, there, bad, before⟩)
    · exact ⟨rfl, bad, fun _ mem => nomatch mem⟩
    · refine ⟨there, bad, ?_⟩
      rw [List.take_succ_cons, List.forall_mem_cons]
      exact ⟨digit, before⟩

theorem exists_isFirstBad (other : ¬ ∀ o ∈ octets, IsDigitOctet o) :
    ∃ index octet, IsFirstBad octets index octet := by
  induction octets with
  | nil => exact absurd (fun _ mem => nomatch mem) other
  | cons first octets ih =>
    by_cases digit : IsDigitOctet first
    · rw [List.forall_mem_cons] at other
      obtain ⟨k, octet, later⟩ := ih fun rest => other ⟨digit, rest⟩
      exact ⟨k + 1, octet, isFirstBad_cons_iff.2 (.inr ⟨digit, k, rfl, later⟩)⟩
    · exact ⟨0, first, isFirstBad_cons_iff.2 (.inl ⟨digit, rfl, rfl⟩)⟩

theorem exists_value?_eq (digit : IsDigitOctet octet) : ∃ value, value? octet = some value := by
  cases reads : value? octet with
  | none => exact absurd digit (value?_eq_none_iff.1 reads)
  | some value => exact ⟨value, rfl⟩

/-- Octets of an even number are refused at the first one that is no digit. -/
theorem decodeFrom_of_isFirstBad (octets : Bytes) (start : Nat) (done : Bytes) {index : Nat}
    (even : octets.length % 2 = 0) (first : IsFirstBad octets index octet) :
    decodeFrom start done octets = .error (.invalidDigit octet (start + index)) := by
  match octets with
  | [] => exact absurd first.there (by simp)
  | [_] => simp at even
  | a :: b :: rest =>
    rcases isFirstBad_cons_iff.1 first with ⟨bad, rfl, rfl⟩ | ⟨digit, k, rfl, later⟩
    · rw [decodeFrom, value?_eq_none_iff.2 bad]
      rfl
    obtain ⟨m, aReads⟩ := exists_value?_eq digit
    rcases isFirstBad_cons_iff.1 later with ⟨bad, rfl, rfl⟩ | ⟨digit, k, rfl, last⟩
    · rw [decodeFrom, aReads, value?_eq_none_iff.2 bad]
    obtain ⟨n, bReads⟩ := exists_value?_eq digit
    rw [decodeFrom, aReads, bReads]
    dsimp only
    rw [decodeFrom_of_isFirstBad rest _ _ (by simpa [Nat.add_assoc] using even) last]
    congr 2
    omega

end Hex

namespace Digest

open Hex

variable {text : String} {d : Digest}

theorem toHex_injective : Function.Injective toHex := fun _ _ same =>
  Digest.ext (encode_injective same)

/-- A text that is made of digits has one octet for each of them. -/
theorem length_ofText (digits : ∀ c ∈ text.toList, IsDigit c) :
    (Bytes.ofText text).length = text.length := by
  rw [Bytes.ofText_eq, length_of_digits digits, String.length_toList]

theorem ofHex_of_odd (odd : (Bytes.ofText text).length % 2 = 1) :
    ofHex text = .error .oddLength := by
  rw [ofHex, decode]
  simp [odd]

theorem ofHex_of_isFirstBad {index : Nat} {octet : UInt8}
    (even : (Bytes.ofText text).length % 2 = 0)
    (first : IsFirstBad (Bytes.ofText text) index octet) :
    ofHex text = .error (.invalidDigit octet index) := by
  rw [ofHex, decode]
  simp [even, decodeFrom_of_isFirstBad _ _ _ even first]

/-- A text of digits is read as the octets that are written as these digits in lower case. -/
theorem decode_of_digits (digits : ∀ c ∈ text.toList, IsDigit c) (even : text.length % 2 = 0) :
    ∃ octets, decode text = .ok octets ∧ encode octets = text.toLower ∧
      2 * octets.length = text.length := by
  obtain ⟨octets, reads, written⟩ := decodeFrom_digits text.toList 0 [] digits
    (by rwa [String.length_toList])
  have lower : encode octets = text.toLower := by
    rw [← String.toList_inj, encode_toList, written, toList_toLower]
  refine ⟨octets, ?_, lower, ?_⟩
  · rw [decode, length_ofText digits, Bytes.ofText_eq, reads]
    simp [even]
  · rw [← (encode_digits octets).1, lower, ← String.length_toList, toList_toLower, List.length_map,
      String.length_toList]

theorem ofHex_of_length (digits : ∀ c ∈ text.toList, IsDigit c) (even : text.length % 2 = 0)
    (other : text.length ≠ 64) : ofHex text = .error .wrongLength := by
  obtain ⟨octets, reads, -, length⟩ := decode_of_digits digits even
  have none : ofBytes? octets = none := dif_neg (by omega)
  rw [ofHex, reads]
  dsimp only
  rw [none]

theorem ofHex_of_digits (digits : ∀ c ∈ text.toList, IsDigit c) (all : text.length = 64) :
    ∃ d, ofHex text = .ok d ∧ d.toHex = text.toLower := by
  obtain ⟨octets, reads, written, length⟩ := decode_of_digits digits (by omega)
  have some : ofBytes? octets = some ⟨octets, by omega⟩ := dif_pos (by omega)
  refine ⟨⟨octets, by omega⟩, ?_, written⟩
  rw [ofHex, reads]
  dsimp only
  rw [some]

/-- What a text is as a digest: refused for the first reason that applies, or the digest that is
written as the text in lower case. -/
inductive Reading (text : String) : Except DecodeError Digest → Prop
  | odd (odd : text.utf8ByteSize % 2 = 1) : Reading text (.error .oddLength)
  | invalid {index : Nat} {octet : UInt8} (even : text.utf8ByteSize % 2 = 0)
      (first : IsFirstBad (Bytes.ofText text) index octet) :
      Reading text (.error (.invalidDigit octet index))
  | length (even : text.utf8ByteSize % 2 = 0) (digits : ∀ o ∈ Bytes.ofText text, IsDigitOctet o)
      (other : text.utf8ByteSize ≠ 64) : Reading text (.error .wrongLength)
  | digest {d : Digest} (digits : ∀ c ∈ text.toList, IsDigit c) (all : text.length = 64)
      (written : d.toHex = text.toLower) : Reading text (.ok d)

theorem utf8ByteSize_eq (text : String) : text.utf8ByteSize = (Bytes.ofText text).length := rfl

/-- **What a text is read as.** -/
theorem ofHex_eq_iff {r : Except DecodeError Digest} : ofHex text = r ↔ Reading text r := by
  have sound : ∀ {r}, Reading text r → ofHex text = r := by
    rintro r (odd | ⟨even, first⟩ | ⟨even, digits, other⟩ | ⟨digits, all, written⟩)
    · exact ofHex_of_odd odd
    · exact ofHex_of_isFirstBad even first
    · rw [← isDigit_iff_octets] at digits
      rw [utf8ByteSize_eq, length_ofText digits] at even other
      exact ofHex_of_length digits even other
    · obtain ⟨d, reads, written'⟩ := ofHex_of_digits digits all
      rw [reads, toHex_injective (written'.trans written.symm)]
  have complete : ∃ r, Reading text r := by
    rcases Nat.mod_two_eq_zero_or_one text.utf8ByteSize with even | odd
    swap
    · exact ⟨_, .odd odd⟩
    by_cases digits : ∀ c ∈ text.toList, IsDigit c
    swap
    · rw [isDigit_iff_octets] at digits
      obtain ⟨index, octet, first⟩ := exists_isFirstBad digits
      exact ⟨_, .invalid even first⟩
    by_cases all : text.length = 64
    swap
    · refine ⟨_, .length even ((isDigit_iff_octets text).1 digits) ?_⟩
      rwa [utf8ByteSize_eq, length_ofText digits]
    obtain ⟨d, -, written⟩ := ofHex_of_digits digits all
    exact ⟨_, .digest digits all written⟩
  constructor
  · rintro rfl
    obtain ⟨r, reading⟩ := complete
    rwa [sound reading]
  · exact sound

/-- A digest is read back from its digits. -/
theorem ofHex_toHex (d : Digest) : ofHex d.toHex = .ok d := by
  obtain ⟨length, digits, lower⟩ := encode_digits d.bytes
  rw [d.length_eq] at length
  exact ofHex_eq_iff.2 (.digest digits length lower.symm)

/-- **Reading accepts exactly the hexadecimal forms of digests.** -/
theorem ofHex_exact (text : String) :
    (∀ d, ofHex text = .ok d ↔
      text.length = 64 ∧ (∀ c ∈ text.toList, IsDigit c) ∧ d.toHex = text.toLower) ∧
    (∀ d : Digest, ofHex d.toHex = .ok d) ∧
    (ofHex text = .error .oddLength ↔ text.utf8ByteSize % 2 = 1) ∧
    (∀ octet index, ofHex text = .error (.invalidDigit octet index) ↔
      text.utf8ByteSize % 2 = 0 ∧ IsFirstBad (Bytes.ofText text) index octet) ∧
    (ofHex text = .error .wrongLength ↔
      text.utf8ByteSize % 2 = 0 ∧ (∀ o ∈ Bytes.ofText text, IsDigitOctet o) ∧
        text.utf8ByteSize ≠ 64) := by
  refine ⟨fun d => ?_, ofHex_toHex, ?_, fun octet index => ?_, ?_⟩ <;> rw [ofHex_eq_iff]
  · constructor
    · rintro ⟨⟩
      exact ⟨‹_›, ‹_›, ‹_›⟩
    · rintro ⟨all, digits, written⟩
      exact .digest digits all written
  · constructor
    · rintro ⟨⟩
      assumption
    · exact .odd
  · constructor
    · rintro ⟨⟩
      exact ⟨‹_›, ‹_›⟩
    · rintro ⟨even, first⟩
      exact .invalid even first
  · constructor
    · rintro ⟨⟩
      exact ⟨‹_›, ‹_›, ‹_›⟩
    · rintro ⟨even, digits, other⟩
      exact .length even digits other

end Digest

end SealedLog

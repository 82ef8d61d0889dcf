/-!
# Byte strings

The octet strings that are hashed, stored and written to files.

* `Bytes`: a list of octets;
* `Bytes.ofText`, `Bytes.toText?`: the UTF-8 form of a text and back;
* `Bytes.bigEndian`, `Bytes.ofBigEndian`: a number in a fixed count of octets, the most
  significant first, and the number that octets denote;
* `Bytes.pieces`: a byte string cut into pieces of one length.
-/

namespace SealedLog

/-- A string of octets. -/
abbrev Bytes := List UInt8

namespace Bytes

/-- The UTF-8 form of a text. -/
def ofText (text : String) : Bytes := text.toUTF8.data.toList

/-- The text whose UTF-8 form the octets are, if they are one. -/
def toText? (bytes : Bytes) : Option String := String.fromUTF8? ⟨bytes.toArray⟩

/-- The last `width` digits of `n` in base 256, the most significant first. -/
def bigEndian : Nat → Nat → Bytes
  | 0, _ => []
  | width + 1, n => bigEndian width (n / 256) ++ [UInt8.ofNat n]

/-- The number that octets denote, the most significant first. -/
def ofBigEndian (bytes : Bytes) : Nat := bytes.foldl (fun n b => 256 * n + b.toNat) 0

/-- The byte string cut into pieces of `n` octets; only the last piece may be shorter. -/
def pieces (n : Nat) (bytes : Bytes) : List Bytes :=
  if bytes = [] ∨ n = 0 then []
  else bytes.take n :: pieces n (bytes.drop n)
termination_by bytes.length
decreasing_by
  rename_i h
  have : 0 < bytes.length := List.length_pos_iff.2 fun e => h (.inl e)
  simp only [List.length_drop]
  omega

/-- A number has as many octets as asked for. -/
@[simp] theorem length_bigEndian (width n : Nat) : (bigEndian width n).length = width := by
  induction width generalizing n with
  | zero => rfl
  | succ width ih => simp [bigEndian, ih]

end Bytes

end SealedLog

import SealedLog.Bytes

/-!
# Hexadecimal text

* `Hex.encode`: two lower-case digits for each octet, the high half first;
* `Hex.decode`: the octets of a text of hexadecimal digits, in either case;
* `Hex.DecodeError`: why a text has no octets, and `Hex.DecodeError.message`.

A text is judged by its UTF-8 octets: first their number must be even, then each must be a digit.
-/

namespace SealedLog.Hex

/-- The lower-case digit of a number below sixteen. -/
def digit (n : Nat) : Char :=
  if n < 10 then Char.ofNat (48 + n) else Char.ofNat (87 + n)

/-- The digits of a byte string, two for each octet. -/
def encode (bytes : Bytes) : String :=
  String.ofList (bytes.flatMap fun b => [digit (b.toNat / 16), digit (b.toNat % 16)])

/-- Why a text does not decode. -/
inductive DecodeError
  /-- The text has an odd number of octets. -/
  | oddLength
  /-- The octet at this index is no digit. -/
  | invalidDigit (octet : UInt8) (index : Nat)
  /-- The digits are fine, but denote a byte string of a length that was not asked for. -/
  | wrongLength
  deriving DecidableEq, Repr

/-- The number of a digit. -/
def value? (octet : UInt8) : Option UInt8 :=
  if 48 ≤ octet ∧ octet ≤ 57 then some (octet - 48)
  else if 97 ≤ octet ∧ octet ≤ 102 then some (octet - 87)
  else if 65 ≤ octet ∧ octet ≤ 70 then some (octet - 55)
  else none

/-- Decode digits that start at `index`, behind the octets `done` in reverse. -/
def decodeFrom (index : Nat) (done : Bytes) : Bytes → Except DecodeError Bytes
  | [] => .ok done.reverse
  | [_] => .error .oddLength
  | high :: low :: rest =>
    match value? high, value? low with
    | none, _ => .error (.invalidDigit high index)
    | some _, none => .error (.invalidDigit low (index + 1))
    | some h, some l => decodeFrom (index + 2) ((16 * h + l) :: done) rest

/-- The octets that a text of digits denotes. -/
def decode (text : String) : Except DecodeError Bytes :=
  let octets := Bytes.ofText text
  if octets.length % 2 = 1 then .error .oddLength else decodeFrom 0 [] octets

/-- Whether the character with an octet's number is shown as it is: it is no control character, no
space but the plain one, and not the invisible hyphen. -/
def isShown (octet : UInt8) : Bool :=
  (32 ≤ octet && octet < 127) || (160 < octet && octet != 173)

/-- The character with an octet's number, as shown between single quotes. -/
def shownChar (octet : UInt8) : String :=
  if octet = 0 then "\\0"
  else if octet = 9 then "\\t"
  else if octet = 10 then "\\n"
  else if octet = 13 then "\\r"
  else if octet = 39 then "\\'"
  else if octet = 92 then "\\\\"
  else if isShown octet then String.singleton (Char.ofNat octet.toNat)
  else "\\u\x7b" ++ String.ofList (Nat.toDigits 16 octet.toNat) ++ "\x7d"

/-- The wording of a refusal. -/
def DecodeError.message : DecodeError → String
  | .oddLength => "Odd number of digits"
  | .invalidDigit octet index =>
    "Invalid character '" ++ shownChar octet ++ "' at position " ++ toString index
  | .wrongLength => "Invalid string length"

end SealedLog.Hex

import SealedLog.Bytes

/-!
# Strings in JSON documents

A JSON string is a sequence of units between quotes: octets that stand for themselves and escapes.
Reading a document keeps the units; what they mean depends on who asks.

* `TextUnit`, `TextUnit.render`: a unit and its octets in a document;
* `Quoted.ofText`: the units in which a text is written;
* `Quoted.text?`: the units as a text, which must be well-formed throughout;
* `Quoted.octets`: the units as a byte string, which need not be a text;
* `Quoted.isPlain`: whether no control character stands for itself.
-/

namespace SealedLog.Json

/-- One unit of a string in a document. -/
inductive TextUnit
  /-- An octet that stands for itself. -/
  | raw (octet : UInt8)
  /-- A backslash and one letter, with the octet they stand for. -/
  | short (octet : UInt8)
  /-- A backslash, the letter `u` and four digits. -/
  | unicode (code : UInt16)
  deriving DecidableEq, Repr

/-- The units of a string. -/
abbrev Quoted := List TextUnit

/-- The octet that a backslash and this letter stand for. -/
def TextUnit.ofLetter? (letter : UInt8) : Option UInt8 :=
  if letter = 34 then some 34
  else if letter = 92 then some 92
  else if letter = 47 then some 47
  else if letter = 98 then some 8
  else if letter = 102 then some 12
  else if letter = 110 then some 10
  else if letter = 114 then some 13
  else if letter = 116 then some 9
  else none

/-- The letter behind a backslash that stands for this octet. -/
def TextUnit.letter (octet : UInt8) : UInt8 :=
  if octet = 8 then 98
  else if octet = 12 then 102
  else if octet = 10 then 110
  else if octet = 13 then 114
  else if octet = 9 then 116
  else octet

/-- The lower-case digit of a number below sixteen. -/
def hexDigit (n : Nat) : UInt8 := if n < 10 then UInt8.ofNat (48 + n) else UInt8.ofNat (87 + n)

/-- The number of a hexadecimal digit in either case. -/
def hexValue? (octet : UInt8) : Option Nat :=
  let n := octet.toNat
  if 48 ≤ n ∧ n ≤ 57 then some (n - 48)
  else if 97 ≤ n ∧ n ≤ 102 then some (n - 87)
  else if 65 ≤ n ∧ n ≤ 70 then some (n - 55)
  else none

/-- The octets of a unit in a document. -/
def TextUnit.render : TextUnit → Bytes
  | .raw octet => [octet]
  | .short octet => [92, letter octet]
  | .unicode code =>
    let n := code.toNat
    [92, 117, hexDigit (n / 4096 % 16), hexDigit (n / 256 % 16), hexDigit (n / 16 % 16),
      hexDigit (n % 16)]

namespace Quoted

/-- How an octet of a text is written: quotes, backslashes and the common control characters
behind a backslash, other control characters by their number, all else as it is. -/
def ofOctet (octet : UInt8) : TextUnit :=
  if octet = 34 ∨ octet = 92 ∨ octet = 8 ∨ octet = 9 ∨ octet = 10 ∨ octet = 12 ∨ octet = 13 then
    .short octet
  else if octet < 32 then .unicode octet.toUInt16
  else .raw octet

/-- The units in which a text is written. -/
def ofText (text : String) : Quoted := (Bytes.ofText text).map ofOctet

/-- Whether no control character stands for itself. -/
def isPlain (units : Quoted) : Bool :=
  units.all fun
    | .raw octet => decide (32 ≤ octet)
    | _ => true

/-- The first half of a pair that denotes one character. -/
def isLead (code : UInt16) : Bool := decide (0xD800 ≤ code ∧ code ≤ 0xDBFF)

/-- The second half of a pair that denotes one character. -/
def isTrail (code : UInt16) : Bool := decide (0xDC00 ≤ code ∧ code ≤ 0xDFFF)

/-- The octets of a code point in the scheme of UTF-8, which also covers halves of pairs. -/
def codePointOctets (n : Nat) : Bytes :=
  if n < 0x80 then [UInt8.ofNat n]
  else if n < 0x800 then [UInt8.ofNat (0xC0 + n / 64), UInt8.ofNat (0x80 + n % 64)]
  else if n < 0x10000 then
    [UInt8.ofNat (0xE0 + n / 4096), UInt8.ofNat (0x80 + n / 64 % 64), UInt8.ofNat (0x80 + n % 64)]
  else
    [UInt8.ofNat (0xF0 + n / 262144), UInt8.ofNat (0x80 + n / 4096 % 64),
      UInt8.ofNat (0x80 + n / 64 % 64), UInt8.ofNat (0x80 + n % 64)]

/-- The code point that a pair denotes. -/
def pairCodePoint (lead trail : UInt16) : Nat :=
  (lead.toNat - 0xD800) * 1024 + (trail.toNat - 0xDC00) + 0x10000

/-- The octets that the units denote, behind the octets `done` in reverse. A first half that is
directly followed by a second half makes one character with it; halves without a partner are kept
as code points of their own. -/
def octetsFrom (done : Bytes) : Quoted → Bytes
  | [] => done.reverse
  | .raw octet :: rest => octetsFrom (octet :: done) rest
  | .short octet :: rest => octetsFrom (octet :: done) rest
  | .unicode lead :: .unicode trail :: rest =>
    if isLead lead ∧ isTrail trail then
      octetsFrom ((codePointOctets (pairCodePoint lead trail)).reverse ++ done) rest
    else
      octetsFrom ((codePointOctets lead.toNat).reverse ++ done) (.unicode trail :: rest)
  | .unicode code :: rest => octetsFrom ((codePointOctets code.toNat).reverse ++ done) rest

/-- The byte string that the units denote. -/
def octets (units : Quoted) : Bytes := octetsFrom [] units

/-- Whether every half of a pair has its partner. -/
def isPaired : Quoted → Bool
  | [] => true
  | .unicode lead :: .unicode trail :: rest =>
    if isLead lead then isTrail trail && isPaired rest
    else !isTrail lead && isPaired (.unicode trail :: rest)
  | .unicode code :: rest => !isLead code && !isTrail code && isPaired rest
  | _ :: rest => isPaired rest

/-- The text that the units denote: no control character stands for itself, every half of a pair
has its partner, and the octets are UTF-8. -/
def text? (units : Quoted) : Option String :=
  if isPlain units && isPaired units then (octets units).toText? else none

end Quoted

end SealedLog.Json

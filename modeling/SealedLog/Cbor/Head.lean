import SealedLog.Bytes

/-!
# Heads of data items

Every CBOR data item (RFC 8949) starts with a head: a major type below eight and an argument below
`2 ^ 64`, the argument in the shortest of five forms.

* `Head.encode`: the shortest head of a major type and an argument;
* `Head.decode?`: the major type and argument of any well-formed head, with what follows it;
* `Integer`: the numbers that majors 0 and 1 denote, `Integer.encode` and `Integer.decode?`.
-/

namespace SealedLog.Cbor

/-- The first octet of a head: the major type above five bits of `info`. -/
def Head.lead (major info : Nat) : UInt8 := UInt8.ofNat (32 * major + info)

/-- The head of major type `major` with argument `n`, in the shortest form. -/
def Head.encode (major : Nat) (n : UInt64) : Bytes :=
  if n < 24 then [lead major n.toNat]
  else if n ≤ 0xff then lead major 24 :: Bytes.bigEndian 1 n.toNat
  else if n ≤ 0xffff then lead major 25 :: Bytes.bigEndian 2 n.toNat
  else if n ≤ 0xffffffff then lead major 26 :: Bytes.bigEndian 4 n.toNat
  else lead major 27 :: Bytes.bigEndian 8 n.toNat

/-- How many octets follow the first octet of a head, from its lower five bits: none up to 23, one,
two, four and eight for the next four values. The other values start no head with an argument. -/
def Head.extra? (info : Nat) : Option Nat :=
  if info < 24 then some 0
  else if info = 24 then some 1
  else if info = 25 then some 2
  else if info = 26 then some 4
  else if info = 27 then some 8
  else none

/-- Read a head: its major type, its argument, and the octets behind it. -/
def Head.decode? : Bytes → Option (Nat × Nat × Bytes)
  | [] => none
  | first :: rest =>
    let major := first.toNat / 32
    let info := first.toNat % 32
    match extra? info with
    | none => none
    | some 0 => some (major, info, rest)
    | some width =>
      if width ≤ rest.length then
        some (major, Bytes.ofBigEndian (rest.take width), rest.drop width)
      else none

/-- The integers that a head can denote: from minus two to the 64th up to, but without, two to the
64th. -/
structure Integer where
  val : Int
  le_val : -18446744073709551616 ≤ val
  val_lt : val < 18446744073709551616
  deriving DecidableEq

namespace Integer

@[ext] theorem ext {a b : Integer} (h : a.val = b.val) : a = b := by
  cases a; cases b; cases h; rfl

/-- A 64-bit signed number. -/
def ofInt64 (n : Int64) : Integer where
  val := n.toInt
  le_val := by have := n.le_toInt; omega
  val_lt := by have := n.toInt_lt; omega

/-- A 64-bit unsigned number. -/
def ofUInt64 (n : UInt64) : Integer where
  val := n.toNat
  le_val := by omega
  val_lt := by have := n.toNat_lt; omega

/-- The shortest head of an integer: major 0 holds `n` itself, major 1 holds `-1 - n`. -/
def encode (n : Integer) : Bytes :=
  if 0 ≤ n.val then Head.encode 0 (UInt64.ofNat n.val.toNat)
  else Head.encode 1 (UInt64.ofNat (-1 - n.val).toNat)

/-- Read an integer by the rules for majors 0 and 1, with the octets behind it. -/
def decode? (bytes : Bytes) : Option (Int × Bytes) :=
  match Head.decode? bytes with
  | some (0, n, rest) => some (n, rest)
  | some (1, n, rest) => some (-1 - n, rest)
  | _ => none

end Integer

end SealedLog.Cbor

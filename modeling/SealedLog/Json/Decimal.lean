import SealedLog.Bytes

/-!
# Decimal integers

* `Decimal.digits`, `Decimal.render`: the digits of a natural number, and of an integer with its
  sign;
* `Decimal.value?`, `Decimal.parse?`: the numbers they denote.
-/

namespace SealedLog.Decimal

/-- The digit of a number below ten. -/
def digit (n : Nat) : UInt8 := UInt8.ofNat (48 + n)

/-- The decimal digits of a number, with no leading zero but in `0` itself. -/
def digits (n : Nat) : Bytes :=
  if n < 10 then [digit n] else digits (n / 10) ++ [digit (n % 10)]

/-- The digits of an integer, behind a minus sign when it is negative. -/
def render : Int → Bytes
  | .ofNat n => digits n
  | .negSucc n => 45 :: digits (n + 1)

/-- The number that digits denote behind a number already read. -/
def valueFrom (n : Nat) : Bytes → Option Nat
  | [] => some n
  | octet :: rest =>
    if 48 ≤ octet ∧ octet ≤ 57 then valueFrom (10 * n + (octet.toNat - 48)) rest else none

/-- The number that one or more digits denote. -/
def value? : Bytes → Option Nat
  | [] => none
  | octet :: rest => valueFrom 0 (octet :: rest)

/-- The integer that digits denote, with or without a minus sign. There is no negative zero. -/
def parse? : Bytes → Option Int
  | 45 :: rest =>
    match value? rest with
    | some (n + 1) => some (.negSucc n)
    | _ => none
  | octets => (value? octets).map Int.ofNat

end SealedLog.Decimal

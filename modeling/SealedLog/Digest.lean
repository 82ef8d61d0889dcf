import SealedLog.Bytes.Hex

/-!
# Digests and nonces

The 32-octet values of the chain. A digest commits to what was hashed; a nonce anchors the next
stream. They are different types, and a digest becomes a nonce only by `Digest.toNonce`.

* `Digest`, `Nonce`, `HashFunction`;
* `Digest.ofHex`: read 64 hexadecimal digits.
-/

namespace SealedLog

/-- A hash value of 32 octets. -/
structure Digest where
  bytes : Bytes
  length_eq : bytes.length = 32
  deriving DecidableEq

/-- A 32-octet value that a stream is anchored to. -/
structure Nonce where
  bytes : Bytes
  length_eq : bytes.length = 32
  deriving DecidableEq

/-- A function that gives every byte string a digest. -/
abbrev HashFunction := Bytes → Digest

namespace Digest

@[ext] theorem ext {a b : Digest} (h : a.bytes = b.bytes) : a = b := by
  cases a; cases b; cases h; rfl

/-- The digest with these octets, if there are 32. -/
def ofBytes? (bytes : Bytes) : Option Digest :=
  if h : bytes.length = 32 then some ⟨bytes, h⟩ else none

/-- The digest that repeats one octet. -/
def fill (octet : UInt8) : Digest := ⟨List.replicate 32 octet, by simp⟩

instance : Inhabited Digest := ⟨fill 0⟩

/-- The 64 digits of a digest. -/
def toHex (digest : Digest) : String := Hex.encode digest.bytes

/-- The digest written as 64 hexadecimal digits. -/
def ofHex (text : String) : Except Hex.DecodeError Digest :=
  match Hex.decode text with
  | .error e => .error e
  | .ok bytes =>
    match ofBytes? bytes with
    | some digest => .ok digest
    | none => .error .wrongLength

/-- A short form for people: the first sixteen digits. -/
def summary (digest : Digest) : String :=
  "Digest(" ++ String.ofList (digest.toHex.toList.take 16) ++ ")"

/-- The nonce with the octets of a digest. -/
def toNonce (digest : Digest) : Nonce := ⟨digest.bytes, digest.length_eq⟩

end Digest

namespace Nonce

@[ext] theorem ext {a b : Nonce} (h : a.bytes = b.bytes) : a = b := by
  cases a; cases b; cases h; rfl

/-- The nonce with these octets, if there are 32. -/
def ofBytes? (bytes : Bytes) : Option Nonce :=
  if h : bytes.length = 32 then some ⟨bytes, h⟩ else none

/-- The nonce that repeats one octet. -/
def fill (octet : UInt8) : Nonce := ⟨List.replicate 32 octet, by simp⟩

instance : Inhabited Nonce := ⟨fill 0⟩

/-- The 64 digits of a nonce. -/
def toHex (nonce : Nonce) : String := Hex.encode nonce.bytes

/-- A short form for people: the first sixteen digits. -/
def summary (nonce : Nonce) : String :=
  "Nonce(" ++ String.ofList (nonce.toHex.toList.take 16) ++ ")"

end Nonce

/-- The complaint about a byte string that should have had 32 octets. -/
def wrongSizeMessage : String := "could not convert slice to array"

end SealedLog

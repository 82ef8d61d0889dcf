import SealedLog.Cbor.Head

/-!
# Canonical encoding of CBOR values

The deterministic encoding of RFC 8949, section 4.2, for the values that digests are taken over:
integers, byte strings, texts and maps. Every argument has its shortest head, every length is
definite, and the entries of a map are in the order of their encoded keys. Other kinds of value
are refused.

* `Value`: the data model;
* `EncodeError`: why a value is refused;
* `Value.encode`: the canonical octets of a value.
-/

namespace SealedLog.Cbor

/-- A CBOR value. -/
inductive Value
  | integer (n : Integer)
  | bytes (octets : Bytes)
  | text (text : String)
  | map (entries : List (Value × Value))
  | float (bits : UInt64)
  | bool (b : Bool)
  | null
  | tag (number : UInt64) (content : Value)
  | array (items : List Value)

/-- Why a value has no canonical encoding. -/
inductive EncodeError
  | float
  | unsupported
  deriving DecidableEq, Repr

/-- The wording of a refusal. -/
def EncodeError.message : EncodeError → String
  | .float => "floats not supported in canonical encoding"
  | .unsupported => "unsupported CBOR value type"

/-- A byte string: major type 2. -/
def encodeBytes (octets : Bytes) : Bytes :=
  Head.encode 2 (UInt64.ofNat octets.length) ++ octets

/-- A text, as its UTF-8 octets: major type 3. -/
def encodeText (text : String) : Bytes :=
  Head.encode 3 (UInt64.ofNat (Bytes.ofText text).length) ++ Bytes.ofText text

/-- The octets of one entry whose value may have been refused. -/
abbrev EncodedEntry := Bytes × Except EncodeError Bytes

/-- The entries in ascending order of their keys; entries of one key keep their order. -/
def sortEntries (entries : List EncodedEntry) : List EncodedEntry :=
  entries.mergeSort fun a b => decide (a.1 ≤ b.1)

/-- The keys with their values, unless some key was refused; then the first refusal. -/
def keysOf : List (Except EncodeError Bytes × Except EncodeError Bytes) →
    Except EncodeError (List EncodedEntry)
  | [] => .ok []
  | (.error e, _) :: _ => .error e
  | (.ok key, value) :: rest =>
    match keysOf rest with
    | .error e => .error e
    | .ok entries => .ok ((key, value) :: entries)

/-- Every key followed by its value, unless some value was refused; then the first refusal. -/
def joinEntries : List EncodedEntry → Except EncodeError Bytes
  | [] => .ok []
  | (_, .error e) :: _ => .error e
  | (key, .ok value) :: rest =>
    match joinEntries rest with
    | .error e => .error e
    | .ok octets => .ok (key ++ value ++ octets)

/-- A map of encoded entries: major type 5, then the entries in the order of their keys. -/
def assemble (entries : List (Except EncodeError Bytes × Except EncodeError Bytes)) :
    Except EncodeError Bytes :=
  match keysOf entries with
  | .error e => .error e
  | .ok keyed =>
    match joinEntries (sortEntries keyed) with
    | .error e => .error e
    | .ok octets => .ok (Head.encode 5 (UInt64.ofNat keyed.length) ++ octets)

mutual

/-- The canonical octets of a value. -/
def Value.encode : Value → Except EncodeError Bytes
  | .integer n => .ok n.encode
  | .bytes octets => .ok (encodeBytes octets)
  | .text text => .ok (encodeText text)
  | .map entries => assemble (encodeEach entries)
  | .float _ => .error .float
  | .bool _ => .error .unsupported
  | .null => .error .unsupported
  | .tag _ _ => .error .unsupported
  | .array _ => .error .unsupported

/-- The key and the value of every entry, encoded. -/
def encodeEach : List (Value × Value) →
    List (Except EncodeError Bytes × Except EncodeError Bytes)
  | [] => []
  | (key, value) :: rest => (key.encode, value.encode) :: encodeEach rest

end

end SealedLog.Cbor

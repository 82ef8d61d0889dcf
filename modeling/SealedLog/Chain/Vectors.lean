import SealedLog.Chain

/-!
# Known chains

Short chains whose digests are known, to check a hash function against.

* `KnownChain`, `knownChains`;
* `KnownChain.check`: whether a hash function gives the known digests, and the tip it gives.
-/

namespace SealedLog

/-- A record with the digits of its known digest. -/
structure KnownRecord where
  timestamp : Int64
  payload : String
  digest : String

/-- A chain with the digits of its known digests. An empty text of digits is not compared. -/
structure KnownChain where
  title : String
  nonce : Nonce
  id : StreamId
  descriptor : StreamDescriptor
  streamDigest : String
  nextNonce : String
  records : List KnownRecord

/-- The nonce that follows the first known stream. -/
def temperatureNextNonce : String :=
  "21a58d53f914034bfd8a93e399954bcdb516e753831a6fe389df92f9cc1c232f"

/-- The known chains. -/
def knownChains : List KnownChain :=
  [{ title := "temperature scenario"
     nonce := .fill 0x42
     id := ⟨1⟩
     descriptor := ⟨"temperature", "Float32", "raw"⟩
     streamDigest := "8106a4155940278f50a45ab652d5340d1b1be4f107e8cd4eeb6877b4442ef1cd"
     nextNonce := temperatureNextNonce
     records :=
      [⟨100, "22.5", "90cf4ccf1a1b808763bdebf24c6d28996326d6c8220475222c2b306c4ef7a93a"⟩,
       ⟨200, "23.1", "c97fd7992d4483f59fbe0709a5e85e271e01b14a3554cb38922fc1df231d6f6f"⟩] },
   { title := "second stream anchored to advanced nonce"
     nonce := ((Digest.ofHex temperatureNextNonce).toOption.getD (.fill 0)).toNonce
     id := ⟨2⟩
     descriptor := ⟨"humidity", "Float32", "raw"⟩
     streamDigest := "5a72a401c0b61bc9f4df2f4e3f451454dd07de2a5dbb854a02b5424ec46ee99f"
     nextNonce := "58c6e1b66eed004aa95cc30cc58e6725bc4523f86160b94dda055f29f2e26de5"
     records :=
      [⟨150, "0.41", "010f271ac496733bf707d478f89d39208ca965c4ec84f7c31621bbe0f6e80062"⟩] },
   { title := "zero nonce, empty payload, negative timestamp"
     nonce := .fill 0
     id := ⟨1⟩
     descriptor := ⟨"empty", "std_msgs/msg/Empty", "cdr"⟩
     streamDigest := "003bdd1c611834a15e24f837be9ba0f3847fab9c6a46d8998c4b872b80584086"
     nextNonce := ""
     records :=
      [⟨-1, "", "78a741674276200c6dffd52822e836f0c826573dcaaa1f3510daba23750ea605"⟩] }]

/-- Whether digits are the known ones, where these are given. -/
def agrees (known digits : String) : Bool := known == "" || known == digits

/-- Follow the records from a digest: whether all agree so far, and the last digest. A record that
is refused does not agree and leaves the digest. -/
def KnownChain.follow (H : HashFunction) (id : StreamId) :
    Bool → Digest → List KnownRecord → Bool × Digest
  | agreed, tip, [] => (agreed, tip)
  | agreed, tip, record :: rest =>
    match recordDigest H tip ⟨record.timestamp, id, Bytes.ofText record.payload⟩ with
    | .error _ => follow H id false tip rest
    | .ok digest => follow H id (agreed && agrees record.digest digest.toHex) digest rest

/-- Whether a hash function gives the known digests, and the digits of the tip it gives. -/
def KnownChain.check (H : HashFunction) (chain : KnownChain) : Bool × String :=
  match SealedLog.streamDigest H chain.nonce chain.descriptor with
  | .error _ => (false, "")
  | .ok digest =>
    match SealedLog.nextNonce H digest chain.descriptor with
    | .error _ => (false, "")
    | .ok nonce =>
      let (agreed, tip) := follow H chain.id
        (agrees chain.streamDigest digest.toHex && agrees chain.nextNonce nonce.toHex) digest
        chain.records
      (agreed, tip.toHex)

end SealedLog

import SealedLog.Record

/-!
# The hash chain

The digest of a stream covers the nonce it is anchored to and its descriptor; the nonce of the next
stream covers that digest and descriptor; the digest of a record covers the digest before it. The
three kinds of input start with different domain separators, so none is an input of another kind.

* `streamPreimage`, `anchorPreimage`, `recordPreimage`: the octets that are hashed;
* `streamDigest`, `nextNonce`, `recordDigest`: their digests, for any hash function;
* `replay`: the digests of a sequence of records.
-/

namespace SealedLog

/-- What every hashed descriptor of a stream starts with. -/
def streamDomain : Bytes := Bytes.ofText "chainlog-stream-v0:"

/-- What every hashed anchor starts with. -/
def anchorDomain : Bytes := Bytes.ofText "chainlog-anchor-v0:"

/-- What every hashed record starts with. -/
def recordDomain : Bytes := Bytes.ofText "chainlog-record-v0:"

/-- The octets that the digest of a stream is taken over. -/
def streamPreimage (nonce : Nonce) (descriptor : StreamDescriptor) : Except InputError Bytes := do
  descriptor.validate
  let octets ← descriptor.canonical
  return streamDomain ++ nonce.bytes ++ octets

/-- The octets that the nonce after a stream is taken over. -/
def anchorPreimage (digest : Digest) (descriptor : StreamDescriptor) : Except InputError Bytes := do
  descriptor.validate
  let octets ← descriptor.canonical
  return anchorDomain ++ digest.bytes ++ octets

/-- The octets that the digest of a record is taken over. -/
def recordPreimage (previous : Digest) (link : Link) : Except InputError Bytes := do
  link.validate
  let octets ← link.canonical
  return recordDomain ++ previous.bytes ++ octets

/-- The digest of a stream that is anchored to a nonce. -/
def streamDigest (H : HashFunction) (nonce : Nonce) (descriptor : StreamDescriptor) :
    Except InputError Digest :=
  (streamPreimage nonce descriptor).map H

/-- The nonce that follows a stream. -/
def nextNonce (H : HashFunction) (digest : Digest) (descriptor : StreamDescriptor) :
    Except InputError Nonce :=
  (anchorPreimage digest descriptor).map fun octets => (H octets).toNonce

/-- The digest of a record behind a digest. -/
def recordDigest (H : HashFunction) (previous : Digest) (link : Link) : Except InputError Digest :=
  (recordPreimage previous link).map H

/-- The digests of the records of a stream, from the digest before them. -/
def replay (H : HashFunction) (start : Digest) : List Link → Except InputError (List Digest)
  | [] => .ok []
  | link :: rest => do
    let digest ← recordDigest H start link
    let digests ← replay H digest rest
    return digest :: digests

end SealedLog

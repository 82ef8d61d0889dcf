import SealedLog.Chain
import SealedLog.Proofs.Cbor.Fields
import SealedLog.Proofs.Except

/-!
# What is hashed

The octets that a digest is taken over determine what the digest is of: whether of a stream or of a
record, the value in front, and the descriptor or the link.

* `StreamDescriptor.octets`, `Link.octets`: the canonical octets, which always exist;
* `streamPreimage_inj`, `anchorPreimage_inj`, `recordPreimage_inj`: preimages of one kind;
* `streamPreimage_ne_recordPreimage`: preimages of two kinds;
* `streamDigest_const`, `nextNonce_const`, `recordDigest_const`: digests where everything has one
  hash.
-/

namespace SealedLog

open Cbor

namespace StreamDescriptor

/-- The canonical octets of a descriptor. -/
def octets (d : StreamDescriptor) : Bytes :=
  fields (encodeText d.name) (encodeText d.typeName) (encodeText d.format)

theorem canonical_eq (d : StreamDescriptor) : d.canonical = .ok d.octets := by
  rw [canonical, toCbor, Value.encode_fields rfl rfl rfl]
  rfl

/-- The lengths of the fields fit into a head. -/
structure IsSized (d : StreamDescriptor) : Prop where
  name : (Bytes.ofText d.name).length < 2 ^ 64
  typeName : (Bytes.ofText d.typeName).length < 2 ^ 64
  format : (Bytes.ofText d.format).length < 2 ^ 64

/-- A descriptor is determined by what starts with its octets. -/
theorem octets_append_inj {d e : StreamDescriptor} {x y : Bytes} (hd : d.IsSized) (he : e.IsSized)
    (h : d.octets ++ x = e.octets ++ y) : d = e ∧ x = y := by
  obtain ⟨name, typeName, format, rest⟩ := fields_append_inj
    (fun _ _ => encodeText_append_inj hd.name he.name)
    (fun _ _ => encodeText_append_inj hd.typeName he.typeName)
    (fun _ _ => encodeText_append_inj hd.format he.format) h
  cases d
  cases e
  cases name
  cases typeName
  cases format
  exact ⟨rfl, rest⟩

end StreamDescriptor

namespace Link

/-- The canonical octets of a link. -/
def octets (l : Link) : Bytes :=
  fields (Integer.ofInt64 l.timestamp).encode (Integer.ofInt64 l.stream.number).encode
    (encodeBytes l.payload)

theorem canonical_eq (l : Link) : l.canonical = .ok l.octets := by
  rw [canonical, toCbor, Value.encode_fields rfl rfl rfl]
  rfl

/-- A link is determined by what starts with its octets. -/
theorem octets_append_inj {l k : Link} {x y : Bytes} (hl : l.payload.length < 2 ^ 64)
    (hk : k.payload.length < 2 ^ 64) (h : l.octets ++ x = k.octets ++ y) : l = k ∧ x = y := by
  obtain ⟨timestamp, stream, payload, rest⟩ := fields_append_inj
    (fun _ _ => Integer.encode_append_inj) (fun _ _ => Integer.encode_append_inj)
    (fun _ _ => encodeBytes_append_inj hl hk) h
  obtain ⟨t, ⟨n⟩, p⟩ := l
  obtain ⟨t', ⟨n'⟩, p'⟩ := k
  obtain rfl := Integer.ofInt64_injective timestamp
  obtain rfl := Integer.ofInt64_injective stream
  cases payload
  exact ⟨rfl, rest⟩

end Link

variable {nonce nonce' : Nonce} {digest digest' : Digest} {d d' : StreamDescriptor} {l l' : Link}
  {octets octets' : Bytes}

/-! ### Preimages -/

/-- What is valid and has canonical octets has a preimage. -/
theorem preimage_eq_ok_iff {valid : Except InputError Unit} {canonical : Except InputError Bytes}
    {body : Bytes} (front : Bytes) (h : canonical = .ok body) :
    (do valid; let octets ← canonical; return front ++ octets) = .ok octets ↔
      valid = .ok () ∧ octets = front ++ body := by
  rw [h]
  cases valid with
  | error e =>
    constructor
    · intro h
      cases h
    · rintro ⟨h, -⟩
      cases h
  | ok _ =>
    constructor
    · intro h
      exact ⟨rfl, (Except.ok.inj h).symm⟩
    · rintro ⟨-, rfl⟩
      rfl

theorem streamPreimage_eq_ok_iff :
    streamPreimage nonce d = .ok octets ↔
      d.validate = .ok () ∧ octets = streamDomain ++ nonce.bytes ++ d.octets :=
  preimage_eq_ok_iff _ d.canonical_eq

theorem anchorPreimage_eq_ok_iff :
    anchorPreimage digest d = .ok octets ↔
      d.validate = .ok () ∧ octets = anchorDomain ++ digest.bytes ++ d.octets :=
  preimage_eq_ok_iff _ d.canonical_eq

theorem recordPreimage_eq_ok_iff :
    recordPreimage digest l = .ok octets ↔
      l.validate = .ok () ∧ octets = recordDomain ++ digest.bytes ++ l.octets :=
  preimage_eq_ok_iff _ l.canonical_eq

/-- Behind one domain a value of fixed length is determined, and so is what stands behind it. -/
theorem framed_inj {domain front front' body body' : Bytes} (len : front.length = front'.length)
    (h : domain ++ front ++ body = domain ++ front' ++ body') : front = front' ∧ body = body' := by
  rw [List.append_assoc, List.append_assoc] at h
  exact List.append_inj (List.append_cancel_left h) len

theorem streamPreimage_inj (hd : d.IsSized) (hd' : d'.IsSized)
    (h : streamPreimage nonce d = .ok octets) (h' : streamPreimage nonce' d' = .ok octets) :
    nonce = nonce' ∧ d = d' := by
  have same := (streamPreimage_eq_ok_iff.1 h).2.symm.trans (streamPreimage_eq_ok_iff.1 h').2
  obtain ⟨first, last⟩ := framed_inj (nonce.length_eq.trans nonce'.length_eq.symm) same
  have descriptor := StreamDescriptor.octets_append_inj hd hd' (congrArg (· ++ []) last)
  exact ⟨Nonce.ext first, descriptor.1⟩

theorem anchorPreimage_inj (hd : d.IsSized) (hd' : d'.IsSized)
    (h : anchorPreimage digest d = .ok octets) (h' : anchorPreimage digest' d' = .ok octets) :
    digest = digest' ∧ d = d' := by
  have same := (anchorPreimage_eq_ok_iff.1 h).2.symm.trans (anchorPreimage_eq_ok_iff.1 h').2
  obtain ⟨first, last⟩ := framed_inj (digest.length_eq.trans digest'.length_eq.symm) same
  have descriptor := StreamDescriptor.octets_append_inj hd hd' (congrArg (· ++ []) last)
  exact ⟨Digest.ext first, descriptor.1⟩

theorem recordPreimage_inj (hl : l.payload.length < 2 ^ 64) (hl' : l'.payload.length < 2 ^ 64)
    (h : recordPreimage digest l = .ok octets) (h' : recordPreimage digest' l' = .ok octets) :
    digest = digest' ∧ l = l' := by
  have same := (recordPreimage_eq_ok_iff.1 h).2.symm.trans (recordPreimage_eq_ok_iff.1 h').2
  obtain ⟨first, last⟩ := framed_inj (digest.length_eq.trans digest'.length_eq.symm) same
  have link := Link.octets_append_inj hl hl' (congrArg (· ++ []) last)
  exact ⟨Digest.ext first, link.1⟩

/-- Preimages of different kinds start with different domains of one length. -/
theorem streamPreimage_ne_recordPreimage (h : streamPreimage nonce d = .ok octets)
    (h' : recordPreimage digest l = .ok octets') : octets ≠ octets' := by
  intro same
  rw [(streamPreimage_eq_ok_iff.1 h).2, (recordPreimage_eq_ok_iff.1 h').2, List.append_assoc,
    List.append_assoc] at same
  -- the domains have one length, so that they can be compared
  have domains : streamDomain ≠ recordDomain := by decide
  exact domains (List.append_inj same (by decide)).1

/-! ### Where everything has one hash -/

theorem streamDigest_const (g : Digest) (valid : d.validate = .ok ()) :
    streamDigest (fun _ => g) nonce d = .ok g := by
  rw [streamDigest, streamPreimage_eq_ok_iff.2 ⟨valid, rfl⟩]
  rfl

theorem nextNonce_const (g : Digest) (valid : d.validate = .ok ()) :
    nextNonce (fun _ => g) digest d = .ok g.toNonce := by
  rw [nextNonce, anchorPreimage_eq_ok_iff.2 ⟨valid, rfl⟩]
  rfl

theorem recordDigest_const (g : Digest) (assigned : l.validate = .ok ()) :
    recordDigest (fun _ => g) digest l = .ok g := by
  rw [recordDigest, recordPreimage_eq_ok_iff.2 ⟨assigned, rfl⟩]
  rfl

end SealedLog

import SealedLog.Proofs.Cbor.Entries
import SealedLog.Proofs.Cbor.Head

/-!
# Values of three fields

Descriptors and links are maps of three values under the keys 0, 1 and 2. Their canonical octets are
the head of such a map, and each key with its value behind it.

* `encodeBytes_append_inj`, `encodeText_append_inj`: strings are determined by what starts with
  them;
* `fields`, `Value.encode_fields`: the canonical octets of a map of three fields;
* `fields_append_inj`: the fields are determined when each of them is.
-/

namespace SealedLog

theorem Bytes.ofText_injective : Function.Injective Bytes.ofText := by
  intro a b h
  rw [ofText, ofText, String.toUTF8_eq_toByteArray, String.toUTF8_eq_toByteArray] at h
  exact String.toByteArray_inj.1 (ByteArray.ext (Array.ext' h))

namespace Cbor

/-- A string with its length in front is determined by what starts with it. -/
theorem sized_append_inj {major : Nat} (hm : major < 8) {a b x y : Bytes}
    (ha : a.length < 2 ^ 64) (hb : b.length < 2 ^ 64)
    (h : Head.encode major (UInt64.ofNat a.length) ++ a ++ x =
      Head.encode major (UInt64.ofNat b.length) ++ b ++ y) : a = b ∧ x = y := by
  rw [List.append_assoc, List.append_assoc] at h
  obtain ⟨-, size, rest⟩ := Head.encode_append_inj hm hm h
  have length : a.length = b.length := by
    have same := congrArg UInt64.toNat size
    rwa [UInt64.toNat_ofNat_of_lt' ha, UInt64.toNat_ofNat_of_lt' hb] at same
  exact List.append_inj rest length

theorem encodeBytes_append_inj {a b x y : Bytes} (ha : a.length < 2 ^ 64) (hb : b.length < 2 ^ 64)
    (h : encodeBytes a ++ x = encodeBytes b ++ y) : a = b ∧ x = y :=
  sized_append_inj (by omega) ha hb h

theorem encodeText_append_inj {a b : String} {x y : Bytes} (ha : (Bytes.ofText a).length < 2 ^ 64)
    (hb : (Bytes.ofText b).length < 2 ^ 64) (h : encodeText a ++ x = encodeText b ++ y) :
    a = b ∧ x = y := by
  obtain ⟨same, rest⟩ := sized_append_inj (by omega) ha hb h
  exact ⟨Bytes.ofText_injective same, rest⟩

/-- The head of a map of three fields, and each key with the octets of its value. -/
def fields (a b c : Bytes) : Bytes := 0xa3 :: 0 :: (a ++ 1 :: (b ++ 2 :: c))

/-- A map of three fields has its keys in order already. -/
theorem Value.encode_fields {u v w : Value} {a b c : Bytes} (hu : u.encode = .ok a)
    (hv : v.encode = .ok b) (hw : w.encode = .ok c) :
    (Value.map [(.integer (.ofUInt64 0), u), (.integer (.ofUInt64 1), v),
      (.integer (.ofUInt64 2), w)]).encode = .ok (fields a b c) := by
  have keys : (Integer.ofUInt64 0).encode = [0] ∧ (Integer.ofUInt64 1).encode = [1] ∧
      (Integer.ofUInt64 2).encode = [2] := by decide
  have order : ([0] : Bytes) ≤ [1] ∧ ([0] : Bytes) ≤ [2] ∧ ([1] : Bytes) ≤ [2] := by decide
  have written : [(integer (.ofUInt64 0), u), (integer (.ofUInt64 1), v),
      (integer (.ofUInt64 2), w)].map outcome =
        [([0], a), ([1], b), ([2], c)].map EncodedPair.outcome := by
    simp only [List.map_cons, List.map_nil, outcome, EncodedPair.outcome, encode, hu, hv, hw, keys]
  rw [encode_of_ascending written (by simp [List.pairwise_cons, order])]
  have head : Head.encode 5 3 = [0xa3] := by decide
  simp [fields, EncodedPair.octets, head]

/-- Fields are determined by what starts with them, if each of them is. -/
theorem fields_append_inj {a b c a' b' c' x y : Bytes} {A B C : Prop}
    (ha : ∀ s t, a ++ s = a' ++ t → A ∧ s = t) (hb : ∀ s t, b ++ s = b' ++ t → B ∧ s = t)
    (hc : ∀ s t, c ++ s = c' ++ t → C ∧ s = t)
    (h : fields a b c ++ x = fields a' b' c' ++ y) : A ∧ B ∧ C ∧ x = y := by
  simp only [fields, List.cons_append, List.append_assoc, List.cons.injEq, true_and] at h
  obtain ⟨first, h⟩ := ha _ _ h
  obtain ⟨second, h⟩ := hb _ _ (List.cons.inj h).2
  obtain ⟨third, h⟩ := hc _ _ (List.cons.inj h).2
  exact ⟨first, second, third, h⟩

end Cbor

end SealedLog

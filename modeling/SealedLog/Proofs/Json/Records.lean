import SealedLog.Ledger.Event
import SealedLog.Metadata
import SealedLog.Proofs.Json.Form

/-!
# Records and events survive as text

What goes to the ledger outside, and whatever else has a JSON form, is read back from its document.
So a document tells which value it was written for, down to the last octet of a payload or digest.

* `LawfulJsonForm` for digests, records, states, events and metadata;
* `JsonForm.Lossless`, `LawfulJsonForm.lossless`: no text loses or confuses a value;
* `LedgerEvent.text_lossless`: nor does that of an event or of anything that an event holds.
-/

namespace SealedLog

/-- Every value is read back from its text, so that no two values have the same text. -/
structure JsonForm.Lossless (α : Type) [JsonForm α] : Prop where
  parse?_text : ∀ a : α, JsonForm.parse? (JsonForm.text a) = some a
  text_injective : ∀ a b : α, JsonForm.text a = JsonForm.text b → a = b

namespace LawfulJsonForm

theorem lossless (α : Type) [JsonForm α] [LawfulJsonForm α] : JsonForm.Lossless α where
  parse?_text := parse?_text
  text_injective a b same := by
    have reads := parse?_text a
    rw [same, parse?_text b] at reads
    exact (Option.some.inj reads).symm

/-! ### Digests and payloads -/

instance : LawfulJsonForm Digest where
  printable d := printable d.bytes
  ofJson?_toJson d := by
    have octets : (toJson d.bytes).listOf? = some d.bytes := ofJson?_toJson d.bytes
    show ((toJson d.bytes).listOf?).bind Digest.ofBytes? = some d
    rw [octets]
    exact dif_pos d.length_eq

instance : LawfulJsonForm Nonce where
  printable n := printable n.bytes
  ofJson?_toJson n := by
    have octets : (toJson n.bytes).listOf? = some n.bytes := ofJson?_toJson n.bytes
    show ((toJson n.bytes).listOf?).bind Nonce.ofBytes? = some n
    rw [octets]
    exact dif_pos n.length_eq

instance : LawfulJsonForm StreamId where
  printable id := printable id.number
  ofJson?_toJson id := by
    show (ofJson? (toJson id.number)).map StreamId.mk = some id
    rw [ofJson?_toJson]
    rfl

/-- The octets of a payload are written as an array of numbers. -/
@[simp] theorem payload?_toJson (payload : Bytes) : (toJson payload).payload? = some payload :=
  ofJson?_toJson payload

/-! ### Structures -/

instance : LawfulJsonForm StreamState where
  printable s := Json.printable_ofMembers (by simp [printable])
  ofJson?_toJson s := (Json.bind_fields?_ofMembers (by simp) _).trans (by simp [ofJson?_toJson])

instance : LawfulJsonForm Message where
  printable m := Json.printable_ofMembers (by simp [printable])
  ofJson?_toJson m := (Json.bind_fields?_ofMembers (by simp) _).trans (by simp [ofJson?_toJson])

instance : LawfulJsonForm Record where
  printable r := Json.printable_ofMembers (by simp [printable])
  ofJson?_toJson r := (Json.bind_fields?_ofMembers (by simp) _).trans (by simp [ofJson?_toJson])

instance : LawfulJsonForm StorageMetadata where
  printable m := Json.printable_ofMembers (by simp [printable])
  ofJson?_toJson m := (Json.bind_fields?_ofMembers (by simp) _).trans (by simp [ofJson?_toJson])

instance : LawfulJsonForm Announcement where
  printable a := Json.printable_ofMembers (by simp [printable])
  ofJson?_toJson a := (Json.bind_fields?_ofMembers (by simp) _).trans (by simp [ofJson?_toJson])

instance : LawfulJsonForm Checkpoint where
  printable c := Json.printable_ofMembers (by simp [printable])
  ofJson?_toJson c := (Json.bind_fields?_ofMembers (by simp) _).trans (by simp [ofJson?_toJson])

/-- The key says which kind of event it is. -/
instance : LawfulJsonForm LedgerEvent where
  printable e := by
    cases e <;> exact Json.printable_ofMembers (by simp [printable])
  ofJson?_toJson e := by
    unfold instJsonFormLedgerEvent Json.ofMembers
    cases e <;> dsimp only [List.map] <;> rw [Json.Quoted.text?_ofText, ofJson?_toJson] <;> rfl

end LawfulJsonForm

/-- **Events, records, states and metadata survive as text**, and so does all that they hold. -/
theorem LedgerEvent.text_lossless :
    JsonForm.Lossless LedgerEvent ∧ JsonForm.Lossless Checkpoint ∧
      JsonForm.Lossless Announcement ∧ JsonForm.Lossless Message ∧
      JsonForm.Lossless StreamDescriptor ∧ JsonForm.Lossless Digest ∧ JsonForm.Lossless Nonce ∧
      JsonForm.Lossless StreamState ∧ JsonForm.Lossless Record ∧
      JsonForm.Lossless StorageMetadata := by
  open LawfulJsonForm in
  exact ⟨lossless _, lossless _, lossless _, lossless _, lossless _, lossless _, lossless _,
    lossless _, lossless _, lossless _⟩

end SealedLog

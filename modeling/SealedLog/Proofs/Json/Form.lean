import Mathlib.Data.List.Nodup
import SealedLog.Manifest
import SealedLog.Proofs.Json.Document

/-!
# Values that come back from their documents

* `Json.fields?_ofMembers`: the fields of an object with distinct names;
* `LawfulJsonForm`: every value of the type is read back from its form, which can be printed;
* `LawfulJsonForm.parse?_prettyText`, `parse?_text`: and so from its document, in either layout;
* `Manifest.parse_document`: a manifest of a version that can be read comes back.
-/

/-- A list is read completely when each of its members is. -/
theorem Option.mapM_map {α β γ : Type} {f : β → Option γ} {g : α → β} {h : α → γ} {xs : List α}
    (each : ∀ x ∈ xs, f (g x) = some (h x)) : (xs.map g).mapM f = some (xs.map h) := by
  induction xs with
  | nil => rfl
  | cons x xs ih =>
    rw [List.map_cons, List.mapM_cons, each x List.mem_cons_self,
      ih fun y hy => each y (List.mem_cons_of_mem _ hy)]
    rfl

namespace SealedLog

namespace Json

/-! ### Objects -/

variable {members : List (String × Json)}

theorem single?_of_mem (distinct : (members.map Prod.fst).Nodup) {m : String × Json}
    (mem : m ∈ members) : single? members m.1 = some m.2 := by
  have only : members.filter (fun m' => m'.1 == m.1) = [m] := by
    induction members with
    | nil => cases mem
    | cons m' members ih =>
      rw [List.map_cons, List.nodup_cons] at distinct
      rcases List.mem_cons.1 mem with rfl | later
      · have none : members.filter (fun m' => m'.1 == m.1) = [] := by
          rw [List.filter_eq_nil_iff]
          intro m' mem' same
          exact distinct.1 (List.mem_map.2 ⟨m', mem', by simpa using same⟩)
        rw [List.filter_cons, if_pos (beq_self_eq_true _), none]
      · have other : (m'.1 == m.1) = false := by
          rw [beq_eq_false_iff_ne]
          intro same
          exact distinct.1 (same ▸ List.mem_map_of_mem later)
        rw [List.filter_cons, other, ih distinct.2 later]
        rfl
  rw [single?, only]

/-- The fields of an object whose members have distinct names are its members. -/
theorem fields?_ofMembers (distinct : (members.map Prod.fst).Nodup) :
    (ofMembers members).fields? (members.map Prod.fst) = some (members.map Prod.snd) := by
  have keyed : (members.map fun m => (Quoted.ofText m.1, m.2)).mapM
      (fun m => m.1.text?.map fun name => (name, m.2)) = some (members.map id) :=
    Option.mapM_map fun m _ => by rw [Quoted.text?_ofText]; rfl
  have known : members.all (fun m => (members.map Prod.fst).contains m.1 || allPlain [m.2]) =
      true := by
    rw [List.all_eq_true]
    intro m hm
    rw [List.contains_iff_mem.2 (List.mem_map_of_mem hm)]
    rfl
  have values : (members.map Prod.fst).mapM (single? members) = some (members.map Prod.snd) :=
    Option.mapM_map fun m hm => single?_of_mem distinct hm
  rw [List.map_id] at keyed
  simp only [ofMembers, fields?, keyed, known, if_true, values]

/-- What is made of the fields of an object is made of its members. -/
theorem bind_fields?_ofMembers {α : Type} (distinct : (members.map Prod.fst).Nodup)
    (f : List Json → Option α) :
    ((ofMembers members).fields? (members.map Prod.fst)).bind f = f (members.map Prod.snd) := by
  rw [fields?_ofMembers distinct, Option.bind_some]

theorem printable_ofText (text : String) : (ofText text).Printable :=
  .string (Quoted.isPrintable_ofText text)

theorem printable_ofMembers (each : ∀ m ∈ members, m.2.Printable) :
    (ofMembers members).Printable := by
  refine .object (fun m hm => ?_) fun m hm => ?_ <;> obtain ⟨m', hm', rfl⟩ := List.mem_map.1 hm
  · exact Quoted.isPrintable_ofText m'.1
  · exact each m' hm'

end Json

/-- Every value is read back from its form, which can be printed. -/
class LawfulJsonForm (α : Type) [JsonForm α] : Prop where
  printable (a : α) : (toJson a).Printable
  ofJson?_toJson (a : α) : ofJson? (toJson a) = some a

export LawfulJsonForm (printable ofJson?_toJson)

namespace LawfulJsonForm

variable {α : Type} [JsonForm α] [LawfulJsonForm α]

/-- **A value is read back from its document.** -/
theorem parse?_prettyText (a : α) : JsonForm.parse? (JsonForm.prettyText a) = some a := by
  rw [JsonForm.parse?, JsonForm.prettyText, Json.parse?_pretty (printable a), Option.bind_some,
    ofJson?_toJson]

/-- So it is from the document without blanks. -/
theorem parse?_text (a : α) : JsonForm.parse? (JsonForm.text a) = some a := by
  rw [JsonForm.parse?, JsonForm.text, Json.parse?_compact (printable a), Option.bind_some,
    ofJson?_toJson]

/-! ### Numbers, texts and lists -/

theorem intIn?_ofInt {low high n : Int} (above : low ≤ n) (below : n ≤ high) :
    (Json.ofInt n).intIn? low high = some n := by
  have read : (Json.ofInt n).int? = some n := Decimal.parse?_render n
  rw [Json.intIn?, read]
  exact if_pos ⟨above, below⟩

instance : LawfulJsonForm Int64 where
  printable n := .integer n.toInt
  ofJson?_toJson n := by
    show ((Json.ofInt n.toInt).intIn? _ _).map Int64.ofInt = some n
    rw [intIn?_ofInt n.minValue_le_toInt n.toInt_le]
    exact congrArg some n.ofInt_toInt

instance : LawfulJsonForm UInt64 where
  printable n := .integer n.toNat
  ofJson?_toJson n := by
    have below := n.toNat_lt
    show ((Json.ofInt n.toNat).intIn? _ _).map _ = some n
    rw [intIn?_ofInt (by omega) (by omega)]
    exact congrArg some UInt64.ofNat_toNat

instance : LawfulJsonForm UInt32 where
  printable n := .integer n.toNat
  ofJson?_toJson n := by
    have below := n.toNat_lt
    show ((Json.ofInt n.toNat).intIn? _ _).map _ = some n
    rw [intIn?_ofInt (by omega) (by omega)]
    exact congrArg some UInt32.ofNat_toNat

instance : LawfulJsonForm UInt8 where
  printable n := .integer n.toNat
  ofJson?_toJson n := by
    have below := n.toNat_lt
    show ((Json.ofInt n.toNat).intIn? _ _).map _ = some n
    rw [intIn?_ofInt (by omega) (by omega)]
    exact congrArg some UInt8.ofNat_toNat

instance : LawfulJsonForm String where
  printable := Json.printable_ofText
  ofJson?_toJson := Json.Quoted.text?_ofText

instance : LawfulJsonForm (List α) where
  printable items := .array fun v h => by
    obtain ⟨a, -, rfl⟩ := List.mem_map.1 h
    exact printable a
  ofJson?_toJson items := by
    have all : (items.map toJson).mapM ofJson? = some (items.map (id : α → α)) :=
      Option.mapM_map fun a _ => ofJson?_toJson a
    rwa [List.map_id] at all

/-! ### Structures -/

instance : LawfulJsonForm StreamDescriptor where
  printable d := Json.printable_ofMembers (by simp [printable])
  ofJson?_toJson d := (Json.bind_fields?_ofMembers (by simp) _).trans (by simp [ofJson?_toJson])

instance : LawfulJsonForm StreamStatistics where
  printable s := Json.printable_ofMembers (by simp [printable])
  ofJson?_toJson s := (Json.bind_fields?_ofMembers (by simp) _).trans (by simp [ofJson?_toJson])

instance : LawfulJsonForm Manifest where
  printable m := Json.printable_ofMembers (by simp [printable])
  ofJson?_toJson m := (Json.bind_fields?_ofMembers (by simp) _).trans (by simp [ofJson?_toJson])

end LawfulJsonForm

/-- **A manifest is read back from its document**, as long as its version can be read. -/
theorem Manifest.parse_document (m : Manifest) : Manifest.parse m.document =
    if supportedVersion < m.version then .error (.unsupportedVersion m.version) else .ok m := by
  rw [parse, document, LawfulJsonForm.parse?_prettyText]

end SealedLog

import SealedLog.Json.Decimal
import SealedLog.Json.Document

/-!
# Values in JSON form

* `JsonForm`: a type whose values have a JSON form;
* `Json.ofInt`, `Json.int?`, `Json.intIn?`: integers, written without fraction or exponent;
* `Json.fields?`: the fields of a structure, from an object in any order or from an array in the
  order of the fields;
* forms of numbers, texts, lists and octet strings;
* `JsonForm.text`, `JsonForm.prettyText`, `JsonForm.parse?`: documents of a value.

An object must hold every field once. Members under other names are skipped, whatever their value
is, as long as its strings are plain. An array must hold the fields and nothing else.
-/

namespace SealedLog

/-- A type whose values have a JSON form. -/
class JsonForm (α : Type) where
  toJson : α → Json
  ofJson? : Json → Option α

export JsonForm (toJson ofJson?)

namespace Json

/-- An integer. -/
def ofInt (n : Int) : Json := .number (Decimal.render n)

/-- The integer that a number without fraction and exponent denotes. -/
def int? : Json → Option Int
  | .number lexeme => Decimal.parse? lexeme
  | _ => none

/-- The integer that a number denotes, from `low` to `high`. -/
def intIn? (low high : Int) (v : Json) : Option Int :=
  match v.int? with
  | some n => if low ≤ n ∧ n ≤ high then some n else none
  | none => none

/-- A text. -/
def ofText (text : String) : Json := .string (.ofText text)

/-- The text that a string denotes. -/
def text? : Json → Option String
  | .string units => units.text?
  | _ => none

/-- An object with these members. -/
def ofMembers (members : List (String × Json)) : Json :=
  .object (members.map fun m => (.ofText m.1, m.2))

/-- The one value under a name. -/
def single? (keyed : List (String × Json)) (name : String) : Option Json :=
  match keyed.filter fun m => m.1 == name with
  | [m] => some m.2
  | _ => none

/-- The values of the fields of a structure, in the order of the names. -/
def fields? (names : List String) : Json → Option (List Json)
  | .array items => if items.length = names.length then some items else none
  | .object members =>
    match members.mapM fun m => m.1.text?.map fun name => (name, m.2) with
    | none => none
    | some keyed =>
      if keyed.all fun m => names.contains m.1 || allPlain [m.2] then
        names.mapM (single? keyed)
      else none
  | _ => none

/-- The name of a case without data: the name alone, or the only key of an object, over null. -/
def caseName? : Json → Option String
  | .string units => units.text?
  | .object [(key, .null)] => key.text?
  | _ => none

end Json

instance : JsonForm Int64 where
  toJson n := .ofInt n.toInt
  ofJson? v := (v.intIn? Int64.minValue.toInt Int64.maxValue.toInt).map Int64.ofInt

instance : JsonForm UInt64 where
  toJson n := .ofInt n.toNat
  ofJson? v := (v.intIn? 0 18446744073709551615).map fun n => UInt64.ofNat n.toNat

instance : JsonForm UInt32 where
  toJson n := .ofInt n.toNat
  ofJson? v := (v.intIn? 0 4294967295).map fun n => UInt32.ofNat n.toNat

instance : JsonForm UInt8 where
  toJson n := .ofInt n.toNat
  ofJson? v := (v.intIn? 0 255).map fun n => UInt8.ofNat n.toNat

instance : JsonForm String where
  toJson := .ofText
  ofJson? := Json.text?

/-- The items of an array, each of them read. -/
def Json.listOf? {α : Type} [JsonForm α] : Json → Option (List α)
  | .array items => items.mapM ofJson?
  | _ => none

instance {α : Type} [JsonForm α] : JsonForm (List α) where
  toJson items := .array (items.map toJson)
  ofJson? := Json.listOf?

/-- An octet string: an array of numbers, or a string for the octets that it denotes. -/
def Json.payload? : Json → Option Bytes
  | .string units => some units.octets
  | v => v.listOf?

namespace JsonForm

variable {α : Type} [JsonForm α]

/-- The document of a value, without blanks. -/
def text (value : α) : Bytes := (toJson value).compact

/-- The document of a value, over several lines. -/
def prettyText (value : α) : Bytes := (toJson value).pretty

/-- The value of a document. -/
def parse? (document : Bytes) : Option α := (Json.parse? document).bind ofJson?

end JsonForm

end SealedLog

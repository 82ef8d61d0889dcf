import SealedLog.Json.Token

/-!
# JSON documents

* `Json`: the value that a document denotes, with numbers and strings as they are written;
* `Builder.step`: one token of a document; `Json.parse?`: the value of a document;
* `Json.compact`, `Json.pretty`: the two layouts of a value.

The builder keeps the arrays and objects that are still open on a stack of its own, so documents
may be nested to any depth.
-/

namespace SealedLog

/-- A JSON value, with numbers and strings as they are written. -/
inductive Json
  | null
  | bool (b : Bool)
  | number (lexeme : Bytes)
  | string (units : Json.Quoted)
  | array (items : List Json)
  | object (members : List (Json.Quoted × Json))

namespace Json

/-- An array or object that is still open, with what it holds so far in reverse. -/
inductive Frame
  | array (items : List Json)
  /-- The value of `key` comes next. -/
  | object (members : List (Quoted × Json)) (key : Quoted)

/-- What may come next. -/
inductive Expect
  | value
  /-- The first item of an array, or its end. -/
  | valueOrClose
  /-- The first key of an object, or its end. -/
  | keyOrClose (outer : List Frame)
  | key (members : List (Quoted × Json)) (outer : List Frame)
  | colon (members : List (Quoted × Json)) (key : Quoted) (outer : List Frame)
  /-- A separator, or the end of the innermost frame. -/
  | separator
  /-- Nothing: the document is complete. -/
  | done (document : Json)

/-- The builder: the open frames, the innermost first, and what may come next. -/
structure Builder where
  frames : List Frame
  expect : Expect

namespace Builder

/-- A value is complete. -/
def put (frames : List Frame) (v : Json) : Builder :=
  match frames with
  | [] => ⟨[], .done v⟩
  | .array items :: outer => ⟨.array (v :: items) :: outer, .separator⟩
  | .object members key :: outer => ⟨.object ((key, v) :: members) [] :: outer, .separator⟩

/-- A token where a value starts. -/
def begin (frames : List Frame) : Token → Option Builder
  | .literalNull => some (put frames .null)
  | .literalTrue => some (put frames (.bool true))
  | .literalFalse => some (put frames (.bool false))
  | .number lexeme => some (put frames (.number lexeme))
  | .string units => some (put frames (.string units))
  | .arrayOpen => some ⟨.array [] :: frames, .valueOrClose⟩
  | .objectOpen => some ⟨frames, .keyOrClose frames⟩
  | _ => none

/-- One token of a document. -/
def step (b : Builder) (token : Token) : Option Builder :=
  match b.expect, token with
  | .value, _ => begin b.frames token
  | .valueOrClose, .arrayClose =>
    match b.frames with
    | .array items :: outer => some (put outer (.array items.reverse))
    | _ => none
  | .valueOrClose, _ => begin b.frames token
  | .keyOrClose outer, .objectClose => some (put outer (.object []))
  | .keyOrClose outer, .string key => some ⟨outer, .colon [] key outer⟩
  | .key members outer, .string key => some ⟨outer, .colon members key outer⟩
  | .colon members key outer, .colon => some ⟨.object members key :: outer, .value⟩
  | .separator, .comma =>
    match b.frames with
    | .array items :: outer => some ⟨.array items :: outer, .value⟩
    | .object members _ :: outer => some ⟨outer, .key members outer⟩
    | [] => none
  | .separator, .arrayClose =>
    match b.frames with
    | .array items :: outer => some (put outer (.array items.reverse))
    | _ => none
  | .separator, .objectClose =>
    match b.frames with
    | .object members _ :: outer => some (put outer (.object members.reverse))
    | _ => none
  | _, _ => none

/-- The builder before a document. -/
def initial : Builder := ⟨[], .value⟩

/-- The builder after some tokens. -/
def run (b : Builder) (tokens : List Token) : Option Builder := tokens.foldlM step b

/-- The document, if it is complete. -/
def finish? (b : Builder) : Option Json :=
  match b.expect with
  | .done document => some document
  | _ => none

end Builder

/-- The value of a document: one value, with blanks around its tokens. -/
def parse? (document : Bytes) : Option Json :=
  (Token.scan? document).bind fun tokens => (Builder.initial.run tokens).bind Builder.finish?

/-- The parts with a comma between each two. -/
def separate (parts : List (List Token)) : List Token := List.intercalate [.comma] parts

theorem sizeOf_snd_lt (m : Quoted × Json) : sizeOf m.2 < sizeOf m := by
  cases m
  simp only [Prod.mk.sizeOf_spec]
  omega

/-- The tokens of a value. -/
def tokens : Json → List Token
  | .null => [.literalNull]
  | .bool true => [.literalTrue]
  | .bool false => [.literalFalse]
  | .number lexeme => [.number lexeme]
  | .string units => [.string units]
  | .array items => .arrayOpen :: separate (items.map fun item => tokens item) ++ [.arrayClose]
  | .object members =>
    .objectOpen :: separate (members.map fun m => .string m.1 :: .colon :: tokens m.2) ++
      [.objectClose]
termination_by v => sizeOf v
decreasing_by
  · simp_wf
    have := List.sizeOf_lt_of_mem ‹_›
    omega
  · simp_wf
    have := List.sizeOf_lt_of_mem ‹_›
    have := sizeOf_snd_lt m
    omega

/-- A value without blanks. -/
def compact (v : Json) : Bytes := v.tokens.flatMap Token.render

/-- A line break and the blanks at the start of the next line. -/
def newline (depth : Nat) : Bytes := 10 :: List.replicate (2 * depth) 32

/-- Brackets around parts that each have a line of their own, two blanks deeper than the brackets;
brackets around nothing stay on one line. -/
def enclose (opening closing : UInt8) (depth : Nat) (lines : List Bytes) : Bytes :=
  match lines with
  | [] => [opening, closing]
  | _ :: _ =>
    opening :: newline (depth + 1) ++ List.intercalate (44 :: newline (depth + 1)) lines ++
      newline depth ++ [closing]

/-- A value over several lines, within `depth` open brackets. -/
def prettyFrom (depth : Nat) : Json → Bytes
  | .array items => enclose 91 93 depth (items.map fun item => prettyFrom (depth + 1) item)
  | .object members =>
    enclose 123 125 depth (members.map fun m =>
      (Token.string m.1).render ++ [58, 32] ++ prettyFrom (depth + 1) m.2)
  | .null => Token.literalNull.render
  | .bool true => Token.literalTrue.render
  | .bool false => Token.literalFalse.render
  | .number lexeme => lexeme
  | .string units => (Token.string units).render
termination_by v => sizeOf v
decreasing_by
  · simp_wf
    have := List.sizeOf_lt_of_mem ‹_›
    omega
  · simp_wf
    have := List.sizeOf_lt_of_mem ‹_›
    have := sizeOf_snd_lt m
    omega

/-- A value over several lines. -/
def pretty (v : Json) : Bytes := prettyFrom 0 v

theorem sizeOf_append (a b : List Json) : sizeOf (a ++ b) + 1 = sizeOf a + sizeOf b := by
  induction a with
  | nil => simp only [List.nil_append, List.nil.sizeOf_spec]; omega
  | cons v a ih => simp only [List.cons_append, List.cons.sizeOf_spec]; omega

/-- The values of the members of an object. -/
def values (members : List (Quoted × Json)) : List Json := members.map Prod.snd

theorem sizeOf_values_le (members : List (Quoted × Json)) :
    sizeOf (values members) ≤ sizeOf members := by
  induction members with
  | nil => exact Nat.le_refl _
  | cons m members ih =>
    have := sizeOf_snd_lt m
    simp only [values, List.map_cons, List.cons.sizeOf_spec] at ih ⊢
    omega

/-- Whether no string within the values holds a control character that stands for itself. -/
def allPlain : List Json → Bool
  | [] => true
  | .string units :: rest => Quoted.isPlain units && allPlain rest
  | .array items :: rest => allPlain (items ++ rest)
  | .object members :: rest =>
    members.all (fun m => Quoted.isPlain m.1) && allPlain (values members ++ rest)
  | .null :: rest => allPlain rest
  | .bool _ :: rest => allPlain rest
  | .number _ :: rest => allPlain rest
termination_by values => sizeOf values
decreasing_by
  · simp only [List.cons.sizeOf_spec, string.sizeOf_spec]
    omega
  · have := sizeOf_append items rest
    simp only [List.cons.sizeOf_spec, array.sizeOf_spec]
    omega
  · have := sizeOf_append (values members) rest
    have := sizeOf_values_le members
    simp only [List.cons.sizeOf_spec, object.sizeOf_spec]
    omega
  all_goals
    simp only [List.cons.sizeOf_spec]
    omega

end Json

end SealedLog

import Mathlib.Data.List.Basic
import SealedLog.Json.Form
import SealedLog.Proofs.Json.Lexeme

/-!
# Reading back what was printed

A value whose numbers are integers and whose strings are written as they are read comes back from
its document: the scanner finds the tokens of the value, and the builder makes the value of them.

* `Json.Printable`: such values;
* `Scanner.Reads`, `Scanner.Finds`: the tokens that the scanner finds in octets;
* `reads_prettyFrom`, `reads_compact`: it finds the tokens of a value in its document, whichever
  layout the document has;
* `Builder.run_tokens`: the builder makes the value of its tokens;
* `Json.parse?_pretty`, `Json.parse?_compact`: the value of its document.
-/

namespace SealedLog

namespace Json

/-- The unit is read as it is written. -/
def TextUnit.IsPrintable : TextUnit → Prop
  | .raw octet => octet ≠ 34 ∧ octet ≠ 92
  | .short octet => TextUnit.ofLetter? (TextUnit.letter octet) = some octet
  | .unicode _ => True

/-- All units are read as they are written. -/
def Quoted.IsPrintable (units : Quoted) : Prop := ∀ unit ∈ units, unit.IsPrintable

/-- The value is read as it is written: its numbers are integers, and its strings are read as they
are written. -/
inductive Printable : Json → Prop
  | null : Printable .null
  | bool (b : Bool) : Printable (.bool b)
  | integer (n : Int) : Printable (ofInt n)
  | string {units : Quoted} (written : units.IsPrintable) : Printable (.string units)
  | array {items : List Json} (each : ∀ v ∈ items, Printable v) : Printable (.array items)
  | object {members : List (Quoted × Json)} (keys : ∀ m ∈ members, m.1.IsPrintable)
      (each : ∀ m ∈ members, Printable m.2) : Printable (.object members)

theorem Quoted.isPrintable_ofText (text : String) : (ofText text).IsPrintable := by
  intro unit h
  obtain ⟨octet, -, rfl⟩ := List.mem_map.1 h
  obtain ⟨h, letter⟩ | ⟨h, -⟩ | ⟨h, -, quote, backslash⟩ := ofOctet_cases octet <;> rw [h]
  · exact letter
  · trivial
  · exact ⟨quote, backslash⟩

namespace Scanner

variable {s s' : Scanner} {found : List Token} {octets more : Bytes} {octet : UInt8}
  {tokens moreTokens : List Token}

theorem run_cons (s : Scanner) (octet : UInt8) (octets : Bytes) :
    s.run (octet :: octets) = (s.step octet).bind fun s => s.run octets := rfl

theorem run_append (s : Scanner) (octets more : Bytes) :
    s.run (octets ++ more) = (s.run octets).bind fun s => s.run more :=
  List.foldlM_append

/-- The scanner stands behind these tokens: between tokens, or in an integer that may end here. -/
def Stands (s : Scanner) (found : List Token) : Prop :=
  s = ⟨.between, found⟩ ∨ ∃ part lexeme rest, (part = .zero ∨ part = .whole) ∧
    s = ⟨.number part lexeme.reverse, rest⟩ ∧ found = .number lexeme :: rest

/-- The octet ends an integer, and the scanner takes it for these tokens: a blank, a bracket or a
separator. -/
structure Marks (octet : UInt8) (tokens : List Token) : Prop where
  zero : NumberPart.zero.next? octet = none
  whole : NumberPart.whole.next? octet = none
  start : ∀ found, start found octet = some ⟨.between, tokens.reverse ++ found⟩

/-- From between tokens the scanner reads octets as these tokens, and may be in the last one. -/
def Reads (octets : Bytes) (tokens : List Token) : Prop :=
  ∀ found, ∃ s, run ⟨.between, found⟩ octets = some s ∧ s.Stands (tokens.reverse ++ found)

/-- From between tokens the scanner reads octets as these tokens, and is behind them. -/
def Finds (octets : Bytes) (tokens : List Token) : Prop :=
  ∀ found, run ⟨.between, found⟩ octets = some ⟨.between, tokens.reverse ++ found⟩

theorem Stands.finish? (stands : s.Stands found) : s.finish? = some found.reverse := by
  obtain rfl | ⟨part, lexeme, rest, rfl | rfl, rfl, rfl⟩ := stands
  · rfl
  · simp [Scanner.finish?, NumberPart.isEnd]
  · simp [Scanner.finish?, NumberPart.isEnd]

theorem Stands.step (stands : s.Stands found) (marks : Marks octet tokens) :
    s.step octet = some ⟨.between, tokens.reverse ++ found⟩ := by
  obtain rfl | ⟨part, lexeme, rest, rfl | rfl, rfl, rfl⟩ := stands
  · exact marks.start found
  · simp [Scanner.step, marks.zero, NumberPart.isEnd, marks.start]
  · simp [Scanner.step, marks.whole, NumberPart.isEnd, marks.start]

namespace Finds

theorem nil : Finds [] [] := fun _ => rfl

theorem reads (finds : Finds octets tokens) : Reads octets tokens := fun found =>
  ⟨_, finds found, .inl rfl⟩

theorem append_reads (finds : Finds octets tokens) (reads : Reads more moreTokens) :
    Reads (octets ++ more) (tokens ++ moreTokens) := by
  intro found
  obtain ⟨s, run, stands⟩ := reads (tokens.reverse ++ found)
  refine ⟨s, ?_, ?_⟩
  · rw [run_append, finds found, Option.bind_some, run]
  · rwa [List.reverse_append, List.append_assoc]

theorem append (finds : Finds octets tokens) (rest : Finds more moreTokens) :
    Finds (octets ++ more) (tokens ++ moreTokens) := by
  intro found
  rw [run_append, finds found, Option.bind_some, rest, List.reverse_append, List.append_assoc]

end Finds

/-- Behind a mark the scanner is between tokens. -/
theorem Reads.mark (reads : Reads octets tokens) (marks : Marks octet moreTokens) :
    Finds (octets ++ [octet]) (tokens ++ moreTokens) := by
  intro found
  obtain ⟨s, run, stands⟩ := reads found
  rw [run_append, run, Option.bind_some, run_cons, stands.step marks, List.reverse_append,
    List.append_assoc]
  rfl

theorem Marks.finds (marks : Marks octet tokens) : Finds [octet] tokens :=
  Finds.nil.reads.mark marks

/-! ### Blanks, brackets and separators -/

theorem marks_blank (blank : octet = 32 ∨ octet = 10) : Marks octet [] := by
  rcases blank with rfl | rfl <;> exact ⟨rfl, rfl, fun _ => rfl⟩

theorem marks_comma : Marks 44 [.comma] := ⟨rfl, rfl, fun _ => rfl⟩

theorem marks_colon : Marks 58 [.colon] := ⟨rfl, rfl, fun _ => rfl⟩

theorem marks_arrayOpen : Marks 91 [.arrayOpen] := ⟨rfl, rfl, fun _ => rfl⟩

theorem marks_arrayClose : Marks 93 [.arrayClose] := ⟨rfl, rfl, fun _ => rfl⟩

theorem marks_objectOpen : Marks 123 [.objectOpen] := ⟨rfl, rfl, fun _ => rfl⟩

theorem marks_objectClose : Marks 125 [.objectClose] := ⟨rfl, rfl, fun _ => rfl⟩

theorem finds_blanks (n : Nat) : Finds (List.replicate n 32) [] := by
  induction n with
  | zero => exact .nil
  | succ n ih => exact (marks_blank (.inl rfl)).finds.append ih

/-- A line break ends what was read, and is read as nothing. -/
theorem Reads.newline (reads : Reads octets tokens) (depth : Nat) :
    Finds (octets ++ newline depth) tokens := by
  have finds := (reads.mark (marks_blank (.inr rfl))).append (finds_blanks (2 * depth))
  rw [List.append_nil, List.append_nil] at finds
  rwa [List.append_assoc] at finds

/-! ### Integers -/

theorem isDigit_of_mem (digit : 48 ≤ octet ∧ octet ≤ 57) : isDigit octet = true :=
  decide_eq_true digit

theorem run_whole (read octets : Bytes) (digits : ∀ octet ∈ octets, 48 ≤ octet ∧ octet ≤ 57) :
    run ⟨.number .whole read, found⟩ octets =
      some ⟨.number .whole (octets.reverse ++ read), found⟩ := by
  induction octets generalizing read with
  | nil => rfl
  | cons octet octets ih =>
    have next : step ⟨.number .whole read, found⟩ octet =
        some ⟨.number .whole (octet :: read), found⟩ := by
      simp [step, NumberPart.next?, isDigit_of_mem (digits octet List.mem_cons_self)]
    rw [run_cons, next, Option.bind_some, ih _ fun o h => digits o (List.mem_cons_of_mem _ h),
      List.reverse_cons, List.append_assoc]
    rfl

/-- A digit that is not `0` is no other mark. -/
theorem ne_of_nonzero (low : 49 ≤ octet) (high : octet ≤ 57) {mark : UInt8}
    (other : mark < 49 ∨ 57 < mark) : octet ≠ mark := by
  rintro rfl
  rw [UInt8.le_iff_toNat_le] at low high
  rw [UInt8.lt_iff_toNat_lt, UInt8.lt_iff_toNat_lt] at other
  omega

/-- At the start of an integer, or behind its sign, a digit other than `0` begins the whole part. -/
theorem run_nonzero {sign : Bytes} {mode : Mode}
    (begins : mode = .between ∧ sign = [] ∨ mode = .number .sign sign) {n : Nat} (pos : 0 < n) :
    run ⟨mode, found⟩ (Decimal.digits n) =
      some ⟨.number .whole ((Decimal.digits n).reverse ++ sign), found⟩ := by
  obtain ⟨first, rest, split, low, high, digits⟩ := Decimal.digits_eq_cons pos
  have ne := @ne_of_nonzero first low high
  have digit := isDigit_of_mem ⟨UInt8.le_trans (by decide) low, high⟩
  have next : step ⟨mode, found⟩ first = some ⟨.number .whole (first :: sign), found⟩ := by
    rcases begins with ⟨rfl, rfl⟩ | rfl
    · simp [step, start, isBlank, ne, digit]
    · simp [step, NumberPart.next?, ne, digit]
  rw [split, run_cons, next, Option.bind_some, run_whole _ _ digits, List.reverse_cons,
    List.append_assoc]
  rfl

theorem reads_integer (n : Int) : Reads (Decimal.render n) [.number (Decimal.render n)] := by
  intro found
  cases n with
  | negSucc n =>
    refine ⟨_, run_nonzero (.inr rfl) (Nat.succ_pos n),
      .inr ⟨.whole, _, found, .inr rfl, ?_, rfl⟩⟩
    rw [Decimal.render, List.reverse_cons]
  | ofNat n =>
    rcases Nat.eq_zero_or_pos n with rfl | pos
    · refine ⟨⟨.number .zero [48], found⟩, ?_, .inr ⟨.zero, [48], found, .inl rfl, rfl, ?_⟩⟩ <;>
        rw [Decimal.render, Decimal.digits_of_lt (by omega)] <;> rfl
    · refine ⟨_, run_nonzero (.inl ⟨rfl, rfl⟩) pos, .inr ⟨.whole, _, found, .inr rfl, ?_, rfl⟩⟩
      rw [List.append_nil]
      rfl

/-! ### Strings -/

theorem hexValue?_hexDigit {n : Nat} (h : n < 16) : hexValue? (hexDigit n) = some n := by
  have all : ∀ n < 16, hexValue? (hexDigit n) = some n := by decide
  exact all n h

theorem run_unit {unit : TextUnit} (printable : unit.IsPrintable) (read : Quoted) :
    run ⟨.string read, found⟩ unit.render = some ⟨.string (unit :: read), found⟩ := by
  cases unit with
  | raw octet =>
    obtain ⟨quote, backslash⟩ := printable
    simp [TextUnit.render, run_cons, step, quote, backslash]
    rfl
  | short octet =>
    have letter : TextUnit.ofLetter? (TextUnit.letter octet) = some octet := printable
    have notU : TextUnit.letter octet ≠ 117 := by
      intro same
      rw [same] at letter
      cases letter
    simp [TextUnit.render, run_cons, step, notU, letter]
    rfl
  | unicode code =>
    have hex : ∀ n, hexValue? (hexDigit (n % 16)) = some (n % 16) := fun n =>
      hexValue?_hexDigit (Nat.mod_lt n (by decide))
    have digit : ∀ left value n, step ⟨.digits read (left + 2) value, found⟩ (hexDigit (n % 16)) =
        some ⟨.digits read (left + 1) (16 * value + n % 16), found⟩ := by
      intro left value n
      simp [step, hex]
    have last : ∀ value n, step ⟨.digits read 1 value, found⟩ (hexDigit (n % 16)) =
        some ⟨.string (.unicode (UInt16.ofNat (16 * value + n % 16)) :: read), found⟩ := by
      intro value n
      simp only [step, hex]
      rfl
    have number : 16 * (16 * (16 * (16 * 0 + code.toNat / 4096 % 16) + code.toNat / 256 % 16) +
        code.toNat / 16 % 16) + code.toNat % 16 = code.toNat := by
      have := code.toNat_lt
      omega
    show run ⟨.digits read 4 0, found⟩ [_, _, _, _] = _
    rw [run_cons, digit, Option.bind_some, run_cons, digit, Option.bind_some, run_cons, digit,
      Option.bind_some, run_cons, last, Option.bind_some, number, UInt16.ofNat_toNat]
    rfl

theorem finds_string {units : Quoted} (printable : units.IsPrintable) :
    Finds (Token.string units).render [.string units] := by
  -- the units come one by one behind the quote
  have inside : ∀ (read : Quoted) (found : List Token),
      run ⟨.string read, found⟩ (units.flatMap TextUnit.render ++ [34]) =
        some ⟨.between, .string (read.reverse ++ units) :: found⟩ := by
    induction units with
    | nil =>
      intro read found
      rw [List.append_nil]
      rfl
    | cons unit units ih =>
      intro read found
      rw [List.flatMap_cons, List.append_assoc, run_append,
        run_unit (printable unit List.mem_cons_self), Option.bind_some,
        ih fun u h => printable u (List.mem_cons_of_mem _ h)]
      simp
  intro found
  exact inside [] found

/-! ### Values -/

section

variable {α : Type} {xs : List α} {f : α → Bytes} {g : α → List Token} {opening closing : UInt8}
  {openToken closeToken : Token}

/-- Parts with a separator between them are read one by one. -/
theorem reads_intercalate {separator : Bytes}
    (separates : ∀ octets tokens, Reads octets tokens →
      Finds (octets ++ separator) (tokens ++ [.comma]))
    (each : ∀ x ∈ xs, Reads (f x) (g x)) :
    Reads (List.intercalate separator (xs.map f)) (separate (xs.map g)) := by
  induction xs with
  | nil => exact Finds.nil.reads
  | cons x xs ih =>
    have first := each x List.mem_cons_self
    have rest := ih fun y h => each y (List.mem_cons_of_mem _ h)
    cases xs with
    | nil => simpa [separate] using first
    | cons y xs =>
      rw [separate, List.map_cons, List.map_cons, List.map_cons, List.map_cons,
        List.intercalate_cons_cons, List.intercalate_cons_cons]
      exact (separates _ _ first).append_reads rest

theorem finds_enclose (opens : Marks opening [openToken]) (closes : Marks closing [closeToken])
    (depth : Nat) (each : ∀ x ∈ xs, Reads (f x) (g x)) :
    Finds (enclose opening closing depth (xs.map f))
      (openToken :: separate (xs.map g) ++ [closeToken]) := by
  cases xs with
  | nil => exact opens.finds.append closes.finds
  | cons x xs =>
    have separates : ∀ octets tokens, Reads octets tokens →
        Finds (octets ++ 44 :: newline (depth + 1)) (tokens ++ [.comma]) := by
      intro octets tokens reads
      have finds := (reads.mark marks_comma).reads.newline (depth + 1)
      rwa [List.append_assoc] at finds
    have body := (opens.finds.reads.newline (depth + 1)).append_reads
      (reads_intercalate separates each)
    have whole := ((body.newline depth).reads.mark closes)
    simpa [enclose] using whole

end

/-- The scanner finds the tokens of a value in its document. -/
theorem reads_prettyFrom {v : Json} (printable : v.Printable) (depth : Nat) :
    Reads (prettyFrom depth v) v.tokens := by
  induction printable generalizing depth with
  | null =>
    rw [prettyFrom, Json.tokens]
    exact Finds.reads fun _ => rfl
  | bool b =>
    cases b <;> rw [prettyFrom, Json.tokens] <;> exact Finds.reads fun _ => rfl
  | integer n =>
    rw [ofInt, prettyFrom, Json.tokens]
    exact reads_integer n
  | string written =>
    rw [prettyFrom, Json.tokens]
    exact (finds_string written).reads
  | array _ ih =>
    rw [prettyFrom, Json.tokens]
    exact (finds_enclose marks_arrayOpen marks_arrayClose depth
      fun v hv => ih v hv (depth + 1)).reads
  | object keys _ ih =>
    rw [prettyFrom, Json.tokens]
    refine (finds_enclose marks_objectOpen marks_objectClose depth fun m hm => ?_).reads
    have key := (finds_string (keys m hm)).append
      (marks_colon.finds.append (marks_blank (.inl rfl)).finds)
    exact key.append_reads (ih m hm (depth + 1))

/-! ### The layout without blanks -/

/-- Parts in brackets are read one by one. -/
theorem reads_enclosed {α : Type} {xs : List α} {f : α → Bytes} {g : α → List Token}
    {opening closing : UInt8} {openToken closeToken : Token} (opens : Marks opening [openToken])
    (closes : Marks closing [closeToken]) (each : ∀ x ∈ xs, Reads (f x) (g x)) :
    Reads (opening :: List.intercalate [44] (xs.map f) ++ [closing])
      (openToken :: separate (xs.map g) ++ [closeToken]) := by
  have parts : Reads (List.intercalate [44] (xs.map f)) (separate (xs.map g)) :=
    reads_intercalate (fun _ _ reads => reads.mark marks_comma) each
  exact ((opens.finds.append_reads parts).mark closes).reads

theorem flatMap_separate (parts : List (List Token)) : (separate parts).flatMap Token.render =
    List.intercalate [44] (parts.map fun part => part.flatMap Token.render) := by
  induction parts with
  | nil => rfl
  | cons first parts ih =>
    cases parts with
    | nil => simp [separate]
    | cons second parts =>
      rw [separate, List.map_cons, List.map_cons, List.intercalate_cons_cons,
        List.intercalate_cons_cons, List.flatMap_append, List.flatMap_append]
      rw [separate, List.map_cons] at ih
      rw [ih]
      rfl

theorem compact_array (items : List Json) :
    compact (.array items) = 91 :: List.intercalate [44] (items.map compact) ++ [93] := by
  rw [compact, Json.tokens, List.flatMap_append, List.flatMap_cons, flatMap_separate, List.map_map]
  rfl

theorem compact_object (members : List (Quoted × Json)) : compact (.object members) =
    123 :: List.intercalate [44] (members.map fun m =>
      (Token.string m.1).render ++ ([58] ++ compact m.2)) ++ [125] := by
  rw [compact, Json.tokens, List.flatMap_append, List.flatMap_cons, flatMap_separate, List.map_map]
  rfl

/-- The scanner finds the tokens of a value in its document without blanks. -/
theorem reads_compact {v : Json} (printable : v.Printable) : Reads v.compact v.tokens := by
  induction printable with
  | null =>
    rw [compact, Json.tokens]
    exact Finds.reads fun _ => rfl
  | bool b =>
    cases b <;> rw [compact, Json.tokens] <;> exact Finds.reads fun _ => rfl
  | integer n =>
    rw [ofInt, compact, Json.tokens, List.flatMap_singleton]
    exact reads_integer n
  | string written =>
    rw [compact, Json.tokens, List.flatMap_singleton]
    exact (finds_string written).reads
  | array _ ih =>
    rw [compact_array, Json.tokens]
    exact reads_enclosed marks_arrayOpen marks_arrayClose ih
  | object keys _ ih =>
    rw [compact_object, Json.tokens]
    refine reads_enclosed marks_objectOpen marks_objectClose fun m hm => ?_
    exact (finds_string (keys m hm)).append_reads (marks_colon.finds.append_reads (ih m hm))

end Scanner

/-- **The tokens of a document are those of its value.** -/
theorem scan?_of_reads {v : Json} {document : Bytes} (reads : Scanner.Reads document v.tokens) :
    Token.scan? document = some v.tokens := by
  obtain ⟨s, run, stands⟩ := reads []
  have initial : Scanner.initial.run document = some s := run
  rw [Token.scan?, initial, Option.bind_some, stands.finish?, List.append_nil,
    List.reverse_reverse]

/-! ### Building -/

namespace Builder

variable {frames outer : List Frame} {items : List Json} {members : List (Quoted × Json)}

theorem run_cons (b : Builder) (token : Token) (tokens : List Token) :
    b.run (token :: tokens) = (b.step token).bind fun b => b.run tokens := rfl

theorem run_append (b : Builder) (tokens more : List Token) :
    b.run (tokens ++ more) = (b.run tokens).bind fun b => b.run more :=
  List.foldlM_append

/-- The first token of a value does not close an array. -/
theorem run_valueOrClose (frames : List Frame) (v : Json) :
    run ⟨frames, .valueOrClose⟩ v.tokens = run ⟨frames, .value⟩ v.tokens := by
  cases v with
  | bool b => cases b <;> rw [Json.tokens] <;> rfl
  | null | number | string | array | object => rw [Json.tokens]; rfl

/-- Items behind those of an open array. -/
theorem run_items (before : List Json) (first : Json)
    (each : ∀ v ∈ first :: items, ∀ frames, run ⟨frames, .value⟩ v.tokens = some (put frames v))
    {start : Expect} (starts : start = .value ∨ start = .valueOrClose) :
    run ⟨.array before :: outer, start⟩ (separate ((first :: items).map Json.tokens)) =
      some ⟨.array ((first :: items).reverse ++ before) :: outer, .separator⟩ := by
  have begins : run ⟨.array before :: outer, start⟩ first.tokens =
      some ⟨.array (first :: before) :: outer, .separator⟩ := by
    have value := each first List.mem_cons_self (.array before :: outer)
    rcases starts with rfl | rfl
    · exact value
    · exact (run_valueOrClose _ first).trans value
  induction items generalizing before first start with
  | nil =>
    rw [separate, List.map_singleton, List.intercalate_singleton, begins]
    rfl
  | cons second items ih =>
    have tail : ∀ v ∈ second :: items, ∀ frames, run ⟨frames, .value⟩ v.tokens =
      some (put frames v) := fun v h => each v (List.mem_cons_of_mem _ h)
    have rest := ih (first :: before) second tail (.inl rfl) (tail second List.mem_cons_self _)
    rw [separate, List.map_cons, List.map_cons, List.intercalate_cons_cons, List.append_assoc,
      run_append, begins, Option.bind_some, List.singleton_append, run_cons]
    rw [separate, List.map_cons] at rest
    refine rest.trans ?_
    simp

/-- The tokens of a member. -/
def member (m : Quoted × Json) : List Token := .string m.1 :: .colon :: m.2.tokens

/-- Members behind those of an open object. -/
theorem run_members (before : List (Quoted × Json)) (first : Quoted × Json)
    (each : ∀ m ∈ first :: members, ∀ frames,
      run ⟨frames, .value⟩ m.2.tokens = some (put frames m.2))
    {start : Expect}
    (starts : start = .key before outer ∨ start = .keyOrClose outer ∧ before = []) :
    run ⟨outer, start⟩ (separate ((first :: members).map member)) =
      some ⟨.object ((first :: members).reverse ++ before) [] :: outer, .separator⟩ := by
  -- the key and the colon lead to the value
  have begins : run ⟨outer, start⟩ (member first) =
      some ⟨.object (first :: before) [] :: outer, .separator⟩ := by
    have value := each first List.mem_cons_self (.object before first.1 :: outer)
    rcases starts with rfl | ⟨rfl, rfl⟩ <;> exact value
  induction members generalizing before first start with
  | nil =>
    rw [separate, List.map_singleton, List.intercalate_singleton, begins]
    rfl
  | cons second members ih =>
    have tail : ∀ m ∈ second :: members, ∀ frames, run ⟨frames, .value⟩ m.2.tokens =
      some (put frames m.2) := fun m h => each m (List.mem_cons_of_mem _ h)
    have rest := ih (first :: before) second tail (.inl rfl) (tail second List.mem_cons_self _)
    rw [separate, List.map_cons, List.map_cons, List.intercalate_cons_cons, List.append_assoc,
      run_append, begins, Option.bind_some, List.singleton_append, run_cons]
    rw [separate, List.map_cons] at rest
    refine rest.trans ?_
    simp

/-- **The builder makes a value of its tokens.** -/
theorem run_tokens (v : Json) (frames : List Frame) :
    run ⟨frames, .value⟩ v.tokens = some (put frames v) := by
  induction v using Json.tokens.induct generalizing frames with
  | case1 | case2 | case3 | case4 | case5 => rw [Json.tokens]; rfl
  | case6 items ih =>
    rw [Json.tokens, List.cons_append, run_cons]
    cases items with
    | nil => rfl
    | cons first items =>
      show run ⟨.array [] :: frames, .valueOrClose⟩ _ = _
      rw [run_append, run_items [] first ih (.inr rfl), Option.bind_some, List.append_nil]
      show some (put frames (.array (first :: items).reverse.reverse)) = _
      rw [List.reverse_reverse]
  | case7 members ih =>
    rw [Json.tokens, List.cons_append, run_cons]
    cases members with
    | nil => rfl
    | cons first members =>
      show run ⟨frames, .keyOrClose frames⟩
        (separate ((first :: members).map member) ++ [.objectClose]) = _
      rw [run_append, run_members [] first ih (.inr ⟨rfl, rfl⟩), Option.bind_some, List.append_nil]
      show some (put frames (.object (first :: members).reverse.reverse)) = _
      rw [List.reverse_reverse]

end Builder

/-- **A value is read from a document in which the scanner finds its tokens.** -/
theorem parse?_of_reads {v : Json} {document : Bytes} (reads : Scanner.Reads document v.tokens) :
    Json.parse? document = some v := by
  have build : Builder.initial.run v.tokens = some (Builder.put [] v) := Builder.run_tokens v []
  rw [Json.parse?, scan?_of_reads reads, Option.bind_some, build, Option.bind_some]
  rfl

theorem parse?_pretty {v : Json} (printable : v.Printable) : Json.parse? v.pretty = some v :=
  parse?_of_reads (Scanner.reads_prettyFrom printable 0)

theorem parse?_compact {v : Json} (printable : v.Printable) : Json.parse? v.compact = some v :=
  parse?_of_reads (Scanner.reads_compact printable)

end Json

end SealedLog

import SealedLog.Json.Quoted

/-!
# Tokens of JSON documents

* `Token`: brackets, separators, literals, numbers as they are written, and strings as units;
* `Token.render`: the octets of a token;
* `Scanner.step`: one octet of a document;
* `Token.scan?`: the tokens of a document.

The scanner checks the spelling of numbers and escapes. It leaves to its callers the order of
tokens and the meaning of strings; in particular it lets control characters in strings pass.
-/

namespace SealedLog.Json

/-- A token of a document. -/
inductive Token
  | objectOpen
  | objectClose
  | arrayOpen
  | arrayClose
  | comma
  | colon
  | literalNull
  | literalTrue
  | literalFalse
  /-- A number, by its octets. -/
  | number (lexeme : Bytes)
  /-- A string, by its units. -/
  | string (units : Quoted)
  deriving DecidableEq, Repr

/-- The octets of a token. -/
def Token.render : Token → Bytes
  | .objectOpen => [123]
  | .objectClose => [125]
  | .arrayOpen => [91]
  | .arrayClose => [93]
  | .comma => [44]
  | .colon => [58]
  | .literalNull => [110, 117, 108, 108]
  | .literalTrue => [116, 114, 117, 101]
  | .literalFalse => [102, 97, 108, 115, 101]
  | .number lexeme => lexeme
  | .string units => 34 :: units.flatMap TextUnit.render ++ [34]

/-- How far the spelling of a number has come. -/
inductive NumberPart
  /-- Behind the sign: a digit must follow. -/
  | sign
  /-- Behind a leading zero, which no digit follows. -/
  | zero
  /-- Within the digits before the point. -/
  | whole
  /-- Behind the point: a digit must follow. -/
  | point
  /-- Within the digits behind the point. -/
  | fraction
  /-- Behind the letter of the exponent: a sign or a digit must follow. -/
  | exponent
  /-- Behind the sign of the exponent: a digit must follow. -/
  | exponentSign
  /-- Within the digits of the exponent. -/
  | exponentDigits
  deriving DecidableEq, Repr

/-- A decimal digit. -/
def isDigit (octet : UInt8) : Bool := decide (48 ≤ octet ∧ octet ≤ 57)

/-- The part of the number that one more octet leads to, if the number goes on. -/
def NumberPart.next? (part : NumberPart) (octet : UInt8) : Option NumberPart :=
  let exponentLetter := octet = 101 ∨ octet = 69
  match part with
  | .sign =>
    if octet = 48 then some .zero else if isDigit octet then some .whole else none
  | .zero =>
    if octet = 46 then some .point else if exponentLetter then some .exponent else none
  | .whole =>
    if isDigit octet then some .whole
    else if octet = 46 then some .point
    else if exponentLetter then some .exponent
    else none
  | .point => if isDigit octet then some .fraction else none
  | .fraction =>
    if isDigit octet then some .fraction else if exponentLetter then some .exponent else none
  | .exponent =>
    if isDigit octet then some .exponentDigits
    else if octet = 43 ∨ octet = 45 then some .exponentSign
    else none
  | .exponentSign => if isDigit octet then some .exponentDigits else none
  | .exponentDigits => if isDigit octet then some .exponentDigits else none

/-- Whether a number may end here. -/
def NumberPart.isEnd : NumberPart → Bool
  | .zero | .whole | .fraction | .exponentDigits => true
  | .sign | .point | .exponent | .exponentSign => false

/-- What the scanner is in the middle of. What it has read of a token is kept in reverse. -/
inductive Scanner.Mode
  | between
  /-- Within a literal: the letters that must still come. -/
  | literal (left : Bytes) (token : Token)
  | number (part : NumberPart) (read : Bytes)
  | string (read : Quoted)
  /-- Behind a backslash. -/
  | escape (read : Quoted)
  /-- Within the digits behind `\u`: how many must still come, and their number so far. -/
  | digits (read : Quoted) (left : Nat) (value : Nat)
  deriving DecidableEq, Repr

/-- The scanner: its mode, and the tokens it has found, the last one first. -/
structure Scanner where
  mode : Scanner.Mode
  found : List Token
  deriving DecidableEq, Repr

namespace Scanner

/-- Space, tab, line feed and carriage return. -/
def isBlank (octet : UInt8) : Bool := octet == 32 || octet == 9 || octet == 10 || octet == 13

/-- An octet between tokens. -/
def start (found : List Token) (octet : UInt8) : Option Scanner :=
  if isBlank octet then some ⟨.between, found⟩
  else if octet = 123 then some ⟨.between, .objectOpen :: found⟩
  else if octet = 125 then some ⟨.between, .objectClose :: found⟩
  else if octet = 91 then some ⟨.between, .arrayOpen :: found⟩
  else if octet = 93 then some ⟨.between, .arrayClose :: found⟩
  else if octet = 44 then some ⟨.between, .comma :: found⟩
  else if octet = 58 then some ⟨.between, .colon :: found⟩
  else if octet = 34 then some ⟨.string [], found⟩
  else if octet = 110 then some ⟨.literal [117, 108, 108] .literalNull, found⟩
  else if octet = 116 then some ⟨.literal [114, 117, 101] .literalTrue, found⟩
  else if octet = 102 then some ⟨.literal [97, 108, 115, 101] .literalFalse, found⟩
  else if octet = 45 then some ⟨.number .sign [octet], found⟩
  else if octet = 48 then some ⟨.number .zero [octet], found⟩
  else if isDigit octet then some ⟨.number .whole [octet], found⟩
  else none

/-- One octet of a document. A number ends at the first octet that does not continue it, and that
octet starts over. -/
def step (s : Scanner) (octet : UInt8) : Option Scanner :=
  match s.mode with
  | .between => start s.found octet
  | .literal [] token => start (token :: s.found) octet
  | .literal [last] token =>
    if octet = last then some ⟨.between, token :: s.found⟩ else none
  | .literal (letter :: left) token =>
    if octet = letter then some ⟨.literal left token, s.found⟩ else none
  | .number part read =>
    match part.next? octet with
    | some part => some ⟨.number part (octet :: read), s.found⟩
    | none => if part.isEnd then start (.number read.reverse :: s.found) octet else none
  | .string read =>
    if octet = 34 then some ⟨.between, .string read.reverse :: s.found⟩
    else if octet = 92 then some ⟨.escape read, s.found⟩
    else some ⟨.string (.raw octet :: read), s.found⟩
  | .escape read =>
    if octet = 117 then some ⟨.digits read 4 0, s.found⟩
    else
      match TextUnit.ofLetter? octet with
      | some meant => some ⟨.string (.short meant :: read), s.found⟩
      | none => none
  | .digits read left value =>
    match hexValue? octet with
    | none => none
    | some digit =>
      let value := 16 * value + digit
      if left ≤ 1 then some ⟨.string (.unicode (UInt16.ofNat value) :: read), s.found⟩
      else some ⟨.digits read (left - 1) value, s.found⟩

/-- The scanner at the start of a document. -/
def initial : Scanner := ⟨.between, []⟩

/-- The scanner after some octets. -/
def run (s : Scanner) (octets : Bytes) : Option Scanner := octets.foldlM step s

/-- The tokens found, if the document may end here. -/
def finish? (s : Scanner) : Option (List Token) :=
  match s.mode with
  | .between => some s.found.reverse
  | .number part read =>
    if part.isEnd then some (.number read.reverse :: s.found).reverse else none
  | _ => none

end Scanner

/-- The tokens of a document. -/
def Token.scan? (document : Bytes) : Option (List Token) :=
  (Scanner.initial.run document).bind Scanner.finish?

end SealedLog.Json

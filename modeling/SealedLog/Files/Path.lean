import SealedLog.Bytes

/-!
# Paths

A path is a text whose names are separated by slashes. It is kept as it was written, and only
looked at through its names.

* `Path.segments`, `Path.names`: what stands between the slashes, with and without single dots;
* `Path.join`: a path below another; `Path.fileName?`: the last name of a path.
-/

namespace SealedLog

/-- A path, as it was written. -/
structure Path where
  text : String
  deriving DecidableEq

namespace Path

/-- What stands between the slashes of a text, empty parts included. -/
def split : List Char → List (List Char)
  | [] => [[]]
  | c :: rest =>
    match c, split rest with
    | '/', parts => [] :: parts
    | c, [] => [[c]]
    | c, part :: parts => (c :: part) :: parts

/-- What stands between the slashes, empty parts left out. -/
def segments (p : Path) : List String :=
  ((split p.text.toList).filter fun part => !part.isEmpty).map String.ofList

/-- The segments that are not the single dot. -/
def names (p : Path) : List String := p.segments.filter fun s => s != "."

/-- Whether the text ends in a slash. -/
def endsInSlash (p : Path) : Bool := p.text.toList.getLast? == some '/'

/-- Whether the text contains the character NUL. -/
def hasNul (p : Path) : Bool := p.text.toList.contains (Char.ofNat 0)

/-- The path of `relative` below a directory. A text that starts with a slash stands for itself. -/
def join (p : Path) (relative : String) : Path :=
  if relative.toList.head? == some '/' || p.text.toList.isEmpty then ⟨relative⟩
  else if p.endsInSlash then ⟨p.text ++ relative⟩
  else ⟨p.text ++ "/" ++ relative⟩

/-- The last name of a path, unless the path ends in `..` or has no names. -/
def fileName? (p : Path) : Option String :=
  match p.names.getLast? with
  | none => none
  | some name => if name == ".." then none else some name

end Path

end SealedLog

import SealedLog.Bytes.Hex
import SealedLog.Files.Path

/-!
# Paths of databases

The path of a database is a path, or, if it begins with `file:`, a URI. Behind the mark of a URI
may stand a host between two slashes and a third one, which must be this one; then comes the path of
the file, up to a fragment or to parameters. Octets of it may be escaped: a percent sign and two
hexadecimal digits stand for the octet of that number.

* `Path.isUri`: whether a path is a URI;
* `Uri.path?`, `Uri.unescape`: the octets behind the host, and those that they stand for;
* `Path.database?`: the path that the path of a database stands for;
* `Path.databaseFile?`: the same unless the database is in no file.

The parameters of a URI are passed over: none of those that ask for another way to open the file is
known here. Nor is a file whose name is no text.
-/

namespace SealedLog

namespace Uri

/-- What URIs begin with. -/
def mark : String := "file:"

/-- The octet of the slash. -/
def slash : UInt8 := 47

/-- What stands behind the host, if the host is this one. -/
def path? (octets : Bytes) : Option Bytes :=
  if octets.take 2 = [slash, slash] then
    let host := (octets.drop 2).takeWhile (· != slash)
    if host = [] ∨ host = Bytes.ofText "localhost" then some (octets.drop (2 + host.length))
    else none
  else some octets

/-- Whether the octet begins a fragment or the parameters. -/
def isEnd (octet : UInt8) : Bool := octet == 35 || octet == 63

/-- The octets of a path up to a fragment or to parameters, with escapes undone. An escaped zero
ends the path as well. -/
def unescape : Bytes → Bytes
  | [] => []
  | octet :: rest =>
    if isEnd octet then []
    else
      match octet == 37, rest with
      | true, high :: low :: behind =>
        match Hex.value? high, Hex.value? low with
        | some h, some l => if 16 * h + l = 0 then [] else (16 * h + l) :: unescape behind
        | _, _ => octet :: unescape (high :: low :: behind)
      | _, rest => octet :: unescape rest

end Uri

namespace Path

/-- Whether the path of a database is a URI. -/
def isUri (p : Path) : Bool := Uri.mark.toList.isPrefixOf p.text.toList

/-- The path that the path of a database stands for. -/
def database? (p : Path) : Option Path :=
  if p.isUri then do
    let octets ← Uri.path? ((Bytes.ofText p.text).drop Uri.mark.length)
    return ⟨← Bytes.toText? (Uri.unescape octets)⟩
  else some p

/-- Whether a database of this path is in no file, but of its connection alone. -/
def isPrivate (p : Path) : Bool := p.text == "" || p.text == ":memory:"

/-- The file of the database of this path, if it is in one. -/
def databaseFile? (p : Path) : Option Path := p.database?.filter fun file => !file.isPrivate

theorem database?_of_not_isUri {p : Path} (plain : p.isUri = false) : p.database? = some p := by
  rw [database?, plain]
  rfl

theorem databaseFile?_eq_some {p : Path} (plain : p.isUri = false)
    (inFile : p.isPrivate = false) : p.databaseFile? = some p := by
  rw [databaseFile?, database?_of_not_isUri plain, Option.filter_some, inFile]
  rfl

/-- A fragment is no part of the path: two directories may have one file. -/
example : (Path.mk "file:db#1/file:db#1.db3").database? = some ⟨"db"⟩ := by decide +kernel

example : (Path.mk "file://localhost/a%20b?mode=ro").database? = some ⟨"/a b"⟩ := by decide +kernel

example : (Path.mk "file://elsewhere/a").database? = none := by decide +kernel

end Path

end SealedLog

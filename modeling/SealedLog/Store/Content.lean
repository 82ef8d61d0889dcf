import SealedLog.Store.Database

/-!
# What files hold

* `Content`: what a file holds: plain octets, a database, or a log of changes that leads to one;
* `Stamp`, `Content.stamp`: what tells the states of a file apart;
* `Companion`: what stands under a name beside a database file.

A file of at most one octet is a database to which nothing was written yet. Other plain octets and
logs are no databases: every statement on them fails.
-/

namespace SealedLog

/-- What is taken to tell the states of a file apart: a count of changes and one of pages. -/
structure Stamp where
  changes : Nat := 0
  pages : Nat := 0
  deriving DecidableEq

/-- What a file holds. -/
inductive Content
  | plain (octets : Bytes)
  /-- A database, with the count of the changes that were made to it. -/
  | database (d : Database) (changes : Nat)
  /-- A log whose changes lead to this database. -/
  | log (d : Database)
  deriving DecidableEq

namespace Content

/-- The database in a file. -/
def database? : Content → Except StoreError Database
  | .plain [] => .ok {}
  | .plain [_] => .ok {}
  | .database d _ => .ok d
  | _ => .error (.database .statement)

/-- Whether the file is a database to which nothing was written yet. -/
def isEmpty : Content → Bool
  | .plain [] => true
  | .plain [_] => true
  | _ => false

/-- Whether the file has any octet. -/
def hasOctets : Content → Bool
  | .plain [] => false
  | _ => true

/-- Whether the first octet is there and not zero. Databases and logs begin with a mark. -/
def isMarked : Content → Bool
  | .plain [] => false
  | .plain (first :: _) => first != 0
  | _ => true

/-- Plain octets that are no database. -/
def broken : Content := .plain [0, 0]

/-- The stamp in a file. It takes the octets from the twenty-fourth to the thirty-ninth, of which
plain octets may have any or none. -/
def stamp : Content → Stamp
  | .database d changes => ⟨changes, d.pages⟩
  | .plain octets =>
    if octets.length < 40 then {}
    else ⟨Bytes.ofBigEndian ((octets.drop 24).take 4), Bytes.ofBigEndian ((octets.drop 28).take 4)⟩
  | .log _ => {}

/-- What a log leads to from here. A file that is no log leads nowhere else. -/
def follow (here : Content) : Content → Content
  | .log d => .database d here.stamp.changes
  | _ => here

/-- The same as a log. -/
def logged : Content → Content
  | .database d _ => .log d
  | other => other

end Content

/-- What stands under a name beside a database file. -/
inductive Companion
  | nothing
  | directory
  | file (content : Content)
  deriving DecidableEq

/-- Whether there is anything to look at. An empty file counts as nothing. -/
def Companion.isSeen : Companion → Bool
  | .nothing => false
  | .directory => true
  | .file content => content.hasOctets

/-- Whether a journal tells of a change that was left unfinished. -/
def Companion.isHot : Companion → Bool
  | .file content => content.isMarked
  | _ => false

end SealedLog

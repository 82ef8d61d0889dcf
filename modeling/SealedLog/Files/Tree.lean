import SealedLog.Files.Error
import SealedLog.Files.Path
import SealedLog.Store.Content

/-!
# The directory tree

* `FileSystem`: directories and files by their location, and what the files hold;
* `FileSystem.locate`: what a path leads to, name by name from the root;
* `read`, `write`, `removeFile`, `removeTree`, `makeDirectory`, `makeDirectories`, `list`: the
  operations.

A file is known by a number that it keeps when its name goes, so that whoever has it open still has
it. There are no links.
-/

namespace SealedLog

/-- A place in the tree: the names from the root. -/
abbrev Location := List String

/-- The number of a file. -/
abbrev FileId := Nat

/-- What stands at a location. -/
inductive Node
  | directory
  | file (id : FileId)
  deriving DecidableEq

/-- A directory tree. The root is a directory without being listed. -/
structure FileSystem where
  nodes : List (Location × Node) := []
  /-- What the files hold, by their numbers. -/
  contents : List Content := []

/-- What a path leads to. -/
inductive Found
  | directory (location : Location)
  | file (location : Location) (id : FileId)
  /-- Nothing, in a directory that exists. -/
  | vacant (location : Location)
  deriving DecidableEq

namespace FileSystem

/-- The greatest length of a name, in octets. -/
def maxName : Nat := 255

/-- The greatest length of a path, in octets. -/
def maxPath : Nat := 4095

/-- What is wrong with a path before it is followed. -/
def checkPath (p : Path) : Except FileError Unit :=
  if p.hasNul then .error .nulInPath
  else if maxPath < (Bytes.ofText p.text).length then .error .nameTooLong
  else .ok ()

/-- What stands at a location. -/
def node? (fs : FileSystem) (location : Location) : Option Node :=
  if location = [] then some .directory else fs.nodes.lookup location

/-- Follow segments from a directory. -/
def walk (fs : FileSystem) (here : Location) : List String → Except FileError Found
  | [] => .ok (.directory here)
  | segment :: rest =>
    if segment = "." then fs.walk here rest
    else if segment = ".." then fs.walk here.dropLast rest
    else if maxName < (Bytes.ofText segment).length then .error .nameTooLong
    else
      match fs.node? (here ++ [segment]), rest with
      | some .directory, _ => fs.walk (here ++ [segment]) rest
      | some (.file id), [] => .ok (.file (here ++ [segment]) id)
      | some (.file _), _ :: _ => .error .notDirectory
      | none, [] => .ok (.vacant (here ++ [segment]))
      | none, _ :: _ => .error .notFound

/-- What a path leads to. A slash at the end demands a directory. -/
def locate (fs : FileSystem) (p : Path) : Except FileError Found :=
  match checkPath p with
  | .error e => .error e
  | .ok () =>
    match fs.walk [] p.segments with
    | .ok (.file location id) =>
      if p.endsInSlash then .error .notDirectory else .ok (.file location id)
    | found => found

/-- Whether a path leads to a file. -/
def isFile (fs : FileSystem) (p : Path) : Bool :=
  match fs.locate p with
  | .ok (.file _ _) => true
  | _ => false

/-- Whether a path leads to a directory. -/
def isDirectory (fs : FileSystem) (p : Path) : Bool :=
  match fs.locate p with
  | .ok (.directory _) => true
  | _ => false

/-- What a file holds. -/
def content (fs : FileSystem) (id : FileId) : Content := fs.contents.getD id (.plain [])

/-- Replace what a file holds. -/
def setContent (fs : FileSystem) (id : FileId) (content : Content) : FileSystem :=
  { fs with contents := fs.contents.set id content }

/-- A new file at a vacant location. -/
def addFile (fs : FileSystem) (location : Location) (content : Content) : FileSystem × FileId :=
  ({ nodes := fs.nodes ++ [(location, .file fs.contents.length)],
     contents := fs.contents ++ [content] },
    fs.contents.length)

/-- Read a file. -/
def read (fs : FileSystem) (p : Path) : Except FileError Content :=
  match fs.locate p with
  | .error e => .error e
  | .ok (.file _ id) => .ok (fs.content id)
  | .ok (.directory _) => .error .isDirectory
  | .ok (.vacant _) => .error .notFound

/-- Make sure that a path can name a file to be written. One that ends in a slash names a directory,
whatever stands there, as long as the way to it is open. -/
def checkWritable (fs : FileSystem) (p : Path) : Except FileError Unit :=
  if p.endsInSlash then
    match fs.walk [] p.segments.dropLast with
    | .error e => .error e
    | .ok (.file _ _) => .error .notDirectory
    | .ok (.vacant _) => .error .notFound
    | .ok (.directory _) => .error .isDirectory
  else .ok ()

/-- Write a file, replacing what it holds, or a new file at a vacant location. -/
def write (fs : FileSystem) (p : Path) (octets : Bytes) : Except FileError FileSystem := do
  checkPath p
  fs.checkWritable p
  match ← fs.locate p with
  | .file _ id => .ok (fs.setContent id (.plain octets))
  | .directory _ => .error .isDirectory
  | .vacant location => .ok (fs.addFile location (.plain octets)).1

/-- Take a location and all below it out of the tree. -/
def removeAt (fs : FileSystem) (location : Location) : FileSystem :=
  { fs with nodes := fs.nodes.filter fun n => !location.isPrefixOf n.1 }

/-- Remove the file that a path leads to, if it does lead to one. -/
def removeFile (fs : FileSystem) (p : Path) : FileSystem :=
  match fs.locate p with
  | .ok (.file location _) => fs.removeAt location
  | _ => fs

/-- Remove a file, or a directory with all it holds. -/
def removeTree (fs : FileSystem) (p : Path) : Except FileError FileSystem :=
  match fs.locate p with
  | .error e => .error e
  | .ok (.file location _) => .ok (fs.removeAt location)
  | .ok (.directory location) => .ok (fs.removeAt location)
  | .ok (.vacant _) => .error .notFound

/-- Make the directory that segments lead to. -/
def makeDirectory (fs : FileSystem) (segments : List String) : Except FileError FileSystem :=
  match fs.walk [] segments with
  | .error e => .error e
  | .ok (.vacant location) => .ok { fs with nodes := fs.nodes ++ [(location, .directory)] }
  | .ok (.directory _) => .error .exists
  | .ok (.file _ _) => .error .exists

/-- Make a directory, or find it. -/
def ensureDirectory (fs : FileSystem) (segments : List String) : Except FileError FileSystem :=
  match fs.makeDirectory segments with
  | .ok fs => .ok fs
  | .error e =>
    match fs.walk [] segments with
    | .ok (.directory _) => .ok fs
    | _ => .error e

/-- Make the directory with these names, given in reverse, and the directories above it. What was
made before a failure stays. -/
def ensureNames (fs : FileSystem) : List String → FileSystem × Except FileError Unit
  | [] => (fs, .ok ())
  | name :: outer =>
    let segments := (name :: outer).reverse
    match fs.ensureDirectory segments with
    | .ok fs => (fs, .ok ())
    | .error .notFound =>
      match fs.ensureNames outer with
      | (fs, .error e) => (fs, .error e)
      | (fs, .ok ()) =>
        match fs.ensureDirectory segments with
        | .ok fs => (fs, .ok ())
        | .error e => (fs, .error e)
    | .error e => (fs, .error e)

/-- Make the directory that a path leads to and the directories above it. -/
def makeDirectories (fs : FileSystem) (p : Path) : FileSystem × Except FileError Unit :=
  match checkPath p with
  | .error e => (fs, .error e)
  | .ok () =>
    match fs.ensureDirectory p.segments with
    | .ok fs => (fs, .ok ())
    | .error .notFound =>
      match fs.ensureNames (p.names.reverse.drop 1) with
      | (fs, .error e) => (fs, .error e)
      | (fs, .ok ()) =>
        match fs.ensureDirectory p.segments with
        | .ok fs => (fs, .ok ())
        | .error e => (fs, .error e)
    | .error e => (fs, .error e)

/-- The names in a directory, in ascending order. -/
def list (fs : FileSystem) (p : Path) : Except FileError (List String) :=
  match fs.locate p with
  | .error e => .error e
  | .ok (.file _ _) => .error .notDirectory
  | .ok (.vacant _) => .error .notFound
  | .ok (.directory location) =>
    let inside := fs.nodes.filter fun n => n.1 != [] && n.1.dropLast == location
    .ok ((inside.filterMap fun n => n.1.getLast?).mergeSort fun a b => decide (a ≤ b))

end FileSystem

end SealedLog

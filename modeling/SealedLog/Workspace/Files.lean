import SealedLog.Workspace.Command

/-!
# Commands on files

* `Workspace.fileStep`: files and directories below the workspace's directory;
* `Workspace.editStep`: changes of database files that no store makes.
-/

namespace SealedLog

/-- The text in a file, if it is one. -/
def Content.text? : Content → Option String
  | .plain octets => Bytes.toText? octets
  | _ => none

namespace Workspace

/-- What a path leads to. -/
def status (files : FileSystem) (p : Path) : Status :=
  if files.isDirectory p then .directory else if files.isFile p then .file else .nothing

/-- The answer of a change of the directory tree, which is made if it succeeds. -/
def changeFiles (w : Workspace) : Except FileError FileSystem → Workspace × Answer
  | .error _ => (w, .failed .file)
  | .ok files => ({ w with files := files }, .done)

/-- Carry out a command on a file. -/
def fileStep (w : Workspace) (path : String) : FileCommand → Workspace × Answer
  | .makeDirectory =>
    let (files, answer) := w.files.makeDirectories (w.locate path)
    ({ w with files := files }, .ofExcept (fun _ => .file) (fun () => .done) answer)
  | .put octets => w.changeFiles (w.files.write (w.locate path) octets)
  | .get =>
    match w.files.read (w.locate path) with
    | .error _ => (w, .failed .file)
    | .ok content => (w, (content.text?.map Answer.text).getD (.failed .file))
  | .remove => w.changeFiles (w.files.removeTree (w.locate path))
  | .status => (w, .status (status w.files (w.locate path)))
  | .list => (w, .ofExcept (fun _ => .file) .names (w.files.list (w.locate path)))

/-- Change a database file, through a connection that is closed at once. -/
def editStep (w : Workspace) (path : String) (edit : Database.Edit) : Workspace × Answer :=
  match w.files.openStore (w.locate path) .readWrite with
  | (files, .error _) => ({ w with files := files }, .failed .database)
  | (files, .ok attached) =>
    let (store, rows) := (attached.load files).edit edit
    let (attached, files) := attached.save files store
    ({ w with files := attached.close files (w.sharesLog attached) },
      (rows.map Answer.rows).getD (.failed .database))

end Workspace

end SealedLog

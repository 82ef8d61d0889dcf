/-!
# Errors of the file system

* `FileError`: why a file operation fails, and `FileError.message`.
-/

namespace SealedLog

/-- Why a file operation fails. -/
inductive FileError
  /-- A directory on the way, or the file itself, is missing. -/
  | notFound
  /-- The name is taken. -/
  | exists
  /-- A file stands where the path goes on. -/
  | notDirectory
  /-- A directory stands where a file is needed. -/
  | isDirectory
  /-- A name on the path has more than 255 octets. -/
  | nameTooLong
  /-- The path contains the character NUL. -/
  | nulInPath
  deriving DecidableEq, Repr

/-- The wording of a file error. -/
def FileError.message : FileError → String
  | .notFound => "No such file or directory (os error 2)"
  | .exists => "File exists (os error 17)"
  | .notDirectory => "Not a directory (os error 20)"
  | .isDirectory => "Is a directory (os error 21)"
  | .nameTooLong => "File name too long (os error 36)"
  | .nulInPath => "file name contained an unexpected NUL byte"

end SealedLog

import Chip8.Text.Quoted

/-!
# Files by name

A file tree holds the contents of files, the directories around them, and the working
directory.  Reading a path walks it component by component, from the root if it starts
with a slash and from the working directory if not: single dots stay, double dots go
up, and only directories can be walked through, so a slash behind the name of a file is
an error.
-/

namespace Chip8

/-- Why a path cannot be read. -/
inductive FileError.Cause where
  /-- Nothing has this name. -/
  | missing
  /-- The path leads through something that is not a directory. -/
  | notDirectory
  /-- The path names a directory. -/
  | isDirectory
  /-- A component, or the whole path, is too long. -/
  | nameTooLong
  /-- Reading is not permitted. -/
  | denied
  /-- Reading failed for another reason. -/
  | broken
  deriving DecidableEq, Repr

/-- The system's number for a cause. -/
def FileError.Cause.number : FileError.Cause → Nat
  | .missing      => 2
  | .notDirectory => 20
  | .isDirectory  => 21
  | .nameTooLong  => 36
  | .denied       => 13
  | .broken       => 5

/-- The system's words for a cause. -/
def FileError.Cause.text : FileError.Cause → String
  | .missing      => "No such file or directory"
  | .notDirectory => "Not a directory"
  | .isDirectory  => "Is a directory"
  | .nameTooLong  => "File name too long"
  | .denied       => "Permission denied"
  | .broken       => "Input/output error"

/-- A path that cannot be read, and why. -/
structure FileError where
  cause : FileError.Cause
  path : String
  deriving DecidableEq, Repr

/-- The report of an unreadable path. -/
def FileError.message (e : FileError) : String :=
  "[Errno " ++ toString e.cause.number ++ "] " ++ e.cause.text ++ ": " ++ Quoted.encode e.path

/-- Files and directories, named by their components from the root. -/
structure FileTree where
  workingDirectory : List String
  files : List (List String × List UInt8)
  directories : List (List String)
  deriving Repr

namespace FileTree

/-- The most bytes that one component of a path may have. -/
def componentLimit : Nat := 255

/-- The number of bytes from which on a path is too long. -/
def pathLimit : Nat := 4096

/-- The components of a path; nothing between two slashes, or behind the last, is a
    single dot. -/
def components (path : String) : List String :=
  (path.splitOn "/").map fun c => if c.isEmpty then "." else c

/-- Whether components name a directory; those on the way to the working directory are. -/
def isDirectory (t : FileTree) (place : List String) : Bool :=
  place.isPrefixOf t.workingDirectory || t.directories.contains place

/-- Walk components from a directory to the contents of a file. -/
def walk (t : FileTree) (place : List String) : List String → Except FileError.Cause (List UInt8)
  | []           => .error .isDirectory
  | "." :: rest  => t.walk place rest
  | ".." :: rest => t.walk place.dropLast rest
  | name :: rest =>
      let next := place ++ [name]
      if componentLimit < name.utf8ByteSize then .error .nameTooLong
      else if t.isDirectory next then t.walk next rest
      else
        match t.files.lookup next with
        | none       => .error .missing
        | some bytes => if rest.isEmpty then .ok bytes else .error .notDirectory

/-- The contents of the file at a path.  The empty path names nothing. -/
def read (t : FileTree) (path : String) : Except FileError (List UInt8) :=
  let found :=
    if path.isEmpty then .error .missing
    else if pathLimit ≤ path.utf8ByteSize then .error .nameTooLong
    else if path.startsWith "/" then t.walk [] (components path)
    else t.walk t.workingDirectory (components path)
  found.mapError (⟨·, path⟩)

end FileTree

end Chip8

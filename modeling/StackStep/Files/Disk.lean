import StackStep.Bytes

/-!
What a command needs of a disk. The commands are written against this interface, so that
they run on real files and, in the same words, on a tree of files held as a value.
-/

namespace StackStep

/-- Why a file cannot be opened or read. -/
inductive FileError where
  | notFound
  | notDirectory
  | isDirectory
  | nameTooLong
  | invalidName
  | denied
  | tooManyLinks
  | other (reason : Bytes)
  deriving DecidableEq, Repr

def FileError.message : FileError → Bytes
  | .notFound => "no such file or directory"
  | .notDirectory => "not a directory"
  | .isDirectory => "is a directory"
  | .nameTooLong => "file name too long"
  | .invalidName => "invalid argument"
  | .denied => "permission denied"
  | .tooManyLinks => "too many levels of symbolic links"
  | .other reason => reason

inductive FileAction where
  | opening
  | reading
  deriving DecidableEq, Repr

/-- A failure with what was tried, and on which path. -/
structure FileFailure where
  action : FileAction
  path : Bytes
  error : FileError
  deriving DecidableEq, Repr

def FileFailure.message (f : FileFailure) : Bytes :=
  (match f.action with
    | .opening => ("open " : Bytes)
    | .reading => "read ") ++ f.path ++ (": " : Bytes) ++ f.error.message

/-- The operations on files, in some monad. -/
structure Disk (m : Type → Type) where
  /-- The directory that relative paths start from. -/
  workingDirectory : m Bytes
  /-- Whether the path leads to anything, which need not be open for reading. -/
  pathExists : (path : Bytes) → m Bool
  read : (path : Bytes) → m (Except FileFailure Bytes)
  /-- Replaces the content of a file, which need not exist. -/
  write : (path data : Bytes) → m (Except FileFailure Unit)
  /-- Makes an empty file unless there is one. -/
  touch : (path : Bytes) → m (Except FileFailure Unit)

end StackStep

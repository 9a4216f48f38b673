/-
# `SourceTokens.Files.System` — what a program can learn of files

A file system answers three questions about a path: the contents of the file, its
size, and whether there is anything at all.  The first two may be refused.
-/

namespace SourceTokens

/-- Why a file cannot be had. -/
inductive FileError
  | notFound
  | notDirectory
  | isDirectory
  | nameTooLong
  | nulInName
  | notText
  /-- Any other refusal, in the system's own words. -/
  | other (message : String)
  deriving DecidableEq, Repr

/-- The refusal in words. -/
def FileError.message : FileError → String
  | notFound => "No such file or directory (os error 2)"
  | notDirectory => "Not a directory (os error 20)"
  | isDirectory => "Is a directory (os error 21)"
  | nameTooLong => "File name too long (os error 36)"
  | nulInName => "file name contained an unexpected NUL byte"
  | notText => "stream did not contain valid UTF-8"
  | other message => message

/-- A state of the files, by the answers it gives. -/
structure FileSystem where
  /-- The octets of a file. -/
  read : String → Except FileError (List UInt8)
  /-- The size that is on record for a path. -/
  size : String → Except FileError Nat
  /-- Whether a path leads anywhere. -/
  present : String → Bool

end SourceTokens

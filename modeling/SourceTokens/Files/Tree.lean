/-
# `SourceTokens.Files.Tree` — files in memory

A directory with what is below it.  Paths are taken one name after the other: an
empty name or a dot stays, two dots go up, and any other name has to be there.  What
is outside the directory is not known; nothing is found there.
-/
import SourceTokens.Files.System

namespace SourceTokens

/-- The directories and files below a directory, each by the names that lead to it.
What has been added last comes first. -/
structure FileTree where
  directories : List (List String)
  files : List (List String × List UInt8)
  deriving DecidableEq, Repr

namespace FileTree

/-- The directory by itself. -/
def empty : FileTree := ⟨[[]], []⟩

/-- The names of a path. -/
def names (path : String) : List String := (path.toList.splitOn '/').map String.ofList

/-- The names of a path that lead on. -/
def steps (path : String) : List String :=
  (names path).filter fun n => n ≠ "" ∧ n ≠ "."

/-- A directory with those around it. -/
def lineage (steps : List String) : List (List String) :=
  (List.range (steps.length + 1)).map steps.take

/-- Add a directory and those around it. -/
def addDirectory (t : FileTree) (path : String) : FileTree :=
  { t with directories := lineage (steps path) ++ t.directories }

/-- Add a file and the directories around it. -/
def addFile (t : FileTree) (path : String) (octets : List UInt8) : FileTree :=
  ⟨lineage (steps path).dropLast ++ t.directories, (steps path, octets) :: t.files⟩

/-- What a path leads to. -/
inductive Place
  | directory
  | file (octets : List UInt8)
  deriving DecidableEq, Repr

/-- Follow names from the directory `here`; `none` is outside the tree. -/
def walk (t : FileTree) (here : Option (List String)) :
    List String → Except FileError Place
  | [] => pure .directory
  | n :: ns =>
    if n = "" ∨ n = "." then walk t here ns
    else if n = ".." then
      walk t (here.bind fun h => if h = [] then none else some h.dropLast) ns
    else if 255 < n.utf8ByteSize then throw .nameTooLong
    else match here with
      | none => throw .notFound
      | some h =>
        if h ++ [n] ∈ t.directories then walk t (some (h ++ [n])) ns
        else match t.files.lookup (h ++ [n]), ns with
          | none, _ => throw .notFound
          | some octets, [] => pure (.file octets)
          | some _, _ :: _ => throw .notDirectory

/-- What a path leads to from the directory of the tree. -/
def find (t : FileTree) (path : String) : Except FileError Place :=
  if '\x00' ∈ path.toList then throw .nulInName
  else if path = "" then throw .notFound
  else if 4096 ≤ path.utf8ByteSize then throw .nameTooLong
  else walk t (if path.startsWith "/" then none else some []) (names path)

/-- The size on record for a directory. -/
def directorySize : Nat := 4096

/-- The tree as a file system. -/
def toFileSystem (t : FileTree) : FileSystem where
  read path := do
    match ← t.find path with
    | .file octets => return octets
    | .directory => throw .isDirectory
  size path := do
    match ← t.find path with
    | .file octets => return octets.length
    | .directory => return directorySize
  present path := (t.find path).isOk

end FileTree

end SourceTokens

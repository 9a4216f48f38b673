/-
# `SourceTokens.Proofs.Trees` — which place a path is about

Followed through the directories, a path leads to one place of a tree at most
(`FileTree.place?`), whether there is a file or not.  That place and the directories decide
what can be learnt of the path: in trees that are the same but for some other place, the
same is read, and the same size is found (`FileTree.agreeAt_of_sameBut`).

The reason of a refusal is left out.  A path that goes on after a file is refused in other
words than one that goes on after nothing.
-/
import SourceTokens.Files.Tree
import SourceTokens.Proofs.Except

namespace SourceTokens

/-- What can be learnt of a path is the same, but for the reasons of refusals. -/
structure FileSystem.AgreeAt (fs fs' : FileSystem) (path : String) : Prop where
  read : (fs.read path).toOption = (fs'.read path).toOption
  size : (fs.size path).toOption = (fs'.size path).toOption

theorem FileSystem.AgreeAt.symm {fs fs' : FileSystem} {path : String}
    (h : fs.AgreeAt fs' path) : fs'.AgreeAt fs path :=
  ⟨h.read.symm, h.size.symm⟩

namespace FileTree

/-- The same directories, and the same files but for one place. -/
structure SameBut (place : List String) (t t' : FileTree) : Prop where
  directories : ∀ names, names ∈ t.directories ↔ names ∈ t'.directories
  files : ∀ names, names ≠ place → t.files.lookup names = t'.files.lookup names

/-- The place that names lead to from the directory `here`.  Only the last name may be that
of no directory. -/
def follow? (t : FileTree) (here : Option (List String)) : List String → Option (List String)
  | [] => here
  | n :: ns =>
    if n = "" ∨ n = "." then follow? t here ns
    else if n = ".." then
      follow? t (here.bind fun h => if h = [] then none else some h.dropLast) ns
    else here.bind fun h =>
      if t.directories.contains (h ++ [n]) then follow? t (some (h ++ [n])) ns
      else if ns = [] then some (h ++ [n]) else none

/-- The place that a path leads to from the directory of the tree. -/
def place? (t : FileTree) (path : String) : Option (List String) :=
  t.follow? (if path.startsWith "/" then none else some []) (names path)

variable {t t' : FileTree} {place : List String}

theorem toOption_walk (h : SameBut place t t') {here : Option (List String)}
    {ns : List String} (hplace : t.follow? here ns ≠ some place) :
    (t.walk here ns).toOption = (t'.walk here ns).toOption := by
  induction ns generalizing here with
  | nil => rfl
  | cons n ns ih =>
    rw [follow?] at hplace
    rw [walk.eq_def, walk.eq_def]
    simp only
    split
    case isTrue hstay => exact ih (by simpa only [if_pos hstay] using hplace)
    case isFalse hstay =>
      rw [if_neg hstay] at hplace
      split
      case isTrue hup => exact ih (by simpa only [if_pos hup] using hplace)
      case isFalse hup =>
        rw [if_neg hup] at hplace
        split
        case isTrue => rfl
        case isFalse =>
          cases here with
          | none => rfl
          | some here =>
            simp only [Option.bind_some, List.contains_iff_mem] at hplace
            simp only [← h.directories]
            split
            case isTrue hmem => exact ih (by simpa only [if_pos hmem] using hplace)
            case isFalse hmem =>
              rw [if_neg hmem] at hplace
              cases ns with
              | nil =>
                have hne : here ++ [n] ≠ place := by
                  rintro rfl
                  exact hplace rfl
                rw [h.files _ hne]
              | cons m ns =>
                -- a name follows that of a file or of nothing, and neither leads on
                cases t.files.lookup (here ++ [n]) <;> cases t'.files.lookup (here ++ [n]) <;> rfl

theorem toOption_find (h : SameBut place t t') {path : String}
    (hplace : t.place? path ≠ some place) :
    (t.find path).toOption = (t'.find path).toOption := by
  rw [find, find]
  split
  · rfl
  · split
    · rfl
    · split
      · rfl
      · exact toOption_walk h hplace

/-- What is at one place has no part in what can be learnt of a path that leads elsewhere. -/
theorem agreeAt_of_sameBut (h : SameBut place t t') {path : String}
    (hplace : t.place? path ≠ some place) :
    t.toFileSystem.AgreeAt t'.toFileSystem path := by
  have hfind := toOption_find h hplace
  constructor
  · show ((t.find path) >>= _).toOption = ((t'.find path) >>= _).toOption
    rw [toOption_bind, toOption_bind, hfind]
  · show ((t.find path) >>= _).toOption = ((t'.find path) >>= _).toOption
    rw [toOption_bind, toOption_bind, hfind]

/-- A file that is added to a directory, whatever was there before. -/
theorem sameBut_addFile (t : FileTree) (path : String) (octets : List UInt8)
    (h : ∀ names ∈ lineage (steps path).dropLast, names ∈ t.directories) :
    SameBut (steps path) t (t.addFile path octets) where
  directories names := by
    simp only [addFile, List.mem_append]
    exact ⟨.inr, fun hnames => hnames.elim (h names) id⟩
  files names hne := by
    simp [addFile, List.lookup_cons, beq_eq_false_iff_ne.mpr hne]

end FileTree

end SourceTokens

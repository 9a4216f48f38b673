/-
# `SourceTokens.Regex.Flags` — settings inside a pattern

A pattern may change how the rest of it is read, up to the end of the group that the
change stands in, or for one group alone.  A change turns flags on and others off, each of
them once; those that it does not name stay as they are.
-/

namespace SourceTokens.Regex

inductive Flag
  /-- `i`: letters stand for their other cases as well. -/
  | ignoreCase
  /-- `m`: `^` and `$` are the ends of lines. -/
  | multiLine
  /-- `s`: `.` takes in newlines. -/
  | dotAll
  /-- `R`: a carriage return ends a line, too. -/
  | crlf
  /-- `U`: repetitions are lazy unless they are marked. -/
  | swapGreed
  /-- `u`: classes and words are those of Unicode. -/
  | unicode
  /-- `x`: blanks and comments may stand between the parts of the pattern. -/
  | verbose
  deriving DecidableEq, Repr

def Flag.ofChar? : Char → Option Flag
  | 'i' => some ignoreCase
  | 'm' => some multiLine
  | 's' => some dotAll
  | 'R' => some crlf
  | 'U' => some swapGreed
  | 'u' => some unicode
  | 'x' => some verbose
  | _ => none

/-- A change of flags. -/
structure FlagChange where
  on : List Flag
  off : List Flag
  deriving DecidableEq, Repr

namespace FlagChange

/-- No change. -/
def none : FlagChange := ⟨[], []⟩

/-- What a flag is changed to, if it is. -/
def value? (d : FlagChange) (f : Flag) : Option Bool :=
  if f ∈ d.on then some true else if f ∈ d.off then some false else .none

/-- The change that the letters between a question mark and what ends them write.  The
letters behind a hyphen turn flags off, and there has to be one. -/
def ofLetters? (cs : List Char) : Option FlagChange := do
  let on ← (cs.takeWhile (· ≠ '-')).mapM Flag.ofChar?
  let off ← match cs.dropWhile (· ≠ '-') with
    | [] => some []
    | ['-'] => .none
    | _ :: cs => cs.mapM Flag.ofChar?
  guard (on ++ off).Nodup
  return ⟨on, off⟩

end FlagChange

/-- Which flags are on. -/
def Flags : Type := Flag → Bool

namespace Flags

/-- The flags at the start of a pattern. -/
def default : Flags
  | .unicode => true
  | _ => false

def change (fs : Flags) (d : FlagChange) : Flags := fun f => (d.value? f).getD (fs f)

theorem change_none (fs : Flags) : fs.change .none = fs := by
  funext f
  simp [change, FlagChange.none, FlagChange.value?]

end Flags

end SourceTokens.Regex

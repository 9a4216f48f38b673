/-
# `SourceTokens.Tag` — the tokens of a tag

A tag such as `<a href="x" hidden>` is kept by its name and the names of its
attributes.  Values are skipped: a quoted one to its closing quote, any other
through the next name, which is a guess.  The loop makes its way through any
text, whether or not it is a tag.
-/
import SourceTokens.Lexicon
import SourceTokens.Scanner
import SourceTokens.Token

namespace SourceTokens.Tag

open SourceTokens

/-- Past a value whose opening quote has been read.  A quote that is never closed
is left at that. -/
def passQuoted (quote : Char) (s : Scanner) : Scanner :=
  if s.peek 1 = [quote] then s.passChar else s.passUntil (Lexicon.stringEnd quote)

/-- Past the value that follows an equals sign. -/
def passValue (s : Scanner) : Scanner :=
  match s.scan (.char '"') with
  | some (_, s) => passQuoted '"' s
  | none =>
    match s.scan (.char '\'') with
    | some (_, s) => passQuoted '\'' s
    | none => s.passUntil Lexicon.identifier

/-- One step: the token found at the cursor, if any, and where to go on. -/
def step (s : Scanner) : Option Token × Scanner :=
  match s.scan Lexicon.tagOpening with
  | some (t, s) => (some (.tag (.ofList t)), s)
  | none =>
    match s.scan Lexicon.assignment with
    | some (t, s) => (some (.assignment (.ofList t)), passValue s)
    | none =>
      match s.scan Lexicon.identifier with
      | some (t, s) => (some (.identifier (.ofList t)), s)
      | none => (none, s.passChar)

theorem length_rest_passQuoted_le (quote : Char) (s : Scanner) :
    (passQuoted quote s).rest.length ≤ s.rest.length := by
  rw [passQuoted]
  split
  · exact s.length_rest_passChar_le
  · exact s.length_rest_passUntil_le _

theorem length_rest_passValue_le (s : Scanner) :
    (passValue s).rest.length ≤ s.rest.length := by
  rw [passValue]
  split
  case h_1 h =>
    exact Nat.le_trans (length_rest_passQuoted_le _ _) (Scanner.length_rest_le_of_scan h)
  case h_2 =>
    split
    case h_1 h =>
      exact Nat.le_trans (length_rest_passQuoted_le _ _)
        (Scanner.length_rest_le_of_scan h)
    case h_2 => exact s.length_rest_passUntil_le _

/-- Every step reads something. -/
theorem length_rest_step_lt {s : Scanner} (hs : s.rest ≠ []) :
    (step s).2.rest.length < s.rest.length := by
  rw [step]
  split
  case h_1 h => exact Scanner.length_rest_lt_of_scan rfl h
  case h_2 =>
    split
    case h_1 h =>
      exact Nat.lt_of_le_of_lt (length_rest_passValue_le _)
        (Scanner.length_rest_lt_of_scan rfl h)
    case h_2 =>
      split
      case h_1 h => exact Scanner.length_rest_lt_of_scan rfl h
      case h_2 => exact Scanner.length_rest_passChar_lt hs

/-- The tokens from the cursor on, after those already found. -/
def collect (s : Scanner) (found : Array Token) : Array Token :=
  if h : s.rest = [] then found
  else
    have := length_rest_step_lt h
    collect (step s).2 ((step s).1.elim found found.push)
termination_by s.rest.length

/-- The tokens of a tag. -/
def tokens (span : List Char) : List Token :=
  (collect (.ofText span) #[]).toList

end SourceTokens.Tag

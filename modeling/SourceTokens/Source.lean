/-
# `SourceTokens.Source` — the tokens of a source

The rules are followed from one end of a source to the other; a character to
which none applies is dropped.  Any text has tokens: a string or a comment that
is not closed runs to the end.
-/
import SourceTokens.Rule

namespace SourceTokens.Source

open SourceTokens

/-- One step: the tokens of the first rule that applies, and where to go on. -/
def step (s : Scanner) : List Token × Scanner :=
  (Rule.all.findSome? (·.apply s)).getD ([], s.passChar)

/-- Every step reads something. -/
theorem length_rest_step_lt {s : Scanner} (hs : s.rest ≠ []) :
    (step s).2.rest.length < s.rest.length := by
  rw [step]
  cases h : Rule.all.findSome? (·.apply s) with
  | none => exact Scanner.length_rest_passChar_lt hs
  | some a =>
    obtain ⟨rule, _, hr⟩ := List.exists_of_findSome?_eq_some h
    exact Rule.length_rest_lt_of_apply hr

/-- The tokens from the cursor on, after those already found. -/
def collect (s : Scanner) (found : Array Token) : Array Token :=
  if h : s.rest = [] then found
  else
    have := length_rest_step_lt h
    collect (step s).2 (found ++ (step s).1)
termination_by s.rest.length

/-- The tokens of a text. -/
def tokens (text : String) : List Token :=
  (collect (.ofText text.toList) #[]).toList

end SourceTokens.Source

/-
# `SourceTokens.Pattern` — patterns with their text

A pattern keeps the text it was read from.  It is used in two ways, held to the
cursor and searched for, and so its text has to be a pattern both as it stands
and inside the group `^(?:…)`.
-/
import SourceTokens.Regex.Reader
import SourceTokens.Text.Quoted

namespace SourceTokens

/-- A pattern text and the expression it writes. -/
structure Pattern where
  source : String
  regex : Regex
  deriving DecidableEq, Repr

namespace Pattern

/-- The pattern text, held to the start of what it is matched against. -/
def wrapped (source : List Char) : List Char :=
  ['^', '(', '?', ':'] ++ source ++ [')']

/-- Read a pattern, which has to be one by itself and once wrapped.  What is known of Unicode
makes a difference only to patterns that name a property or ignore case. -/
def read (source : String) (data : Regex.CharacterData := .none) :
    Except Regex.Malformed Pattern := do
  let _ ← Regex.ofPattern data (wrapped source.toList)
  return ⟨source, ← Regex.ofPattern data source.toList⟩

/-- The pattern as it is shown to a programmer. -/
def debug (p : Pattern) : String :=
  "Pattern(" ++ String.ofList (Text.Quoted.encode p.source.toList) ++ ")"

end Pattern

end SourceTokens

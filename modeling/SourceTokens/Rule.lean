/-
# `SourceTokens.Rule` — the rules of the grammar

At each place of a source the rules are tried in a fixed order and the first that
applies is followed.  The order decides, not the length of what a rule would
read: a quote always opens a string, and `/*` a comment.
-/
import SourceTokens.Interpreter
import SourceTokens.Tag

namespace SourceTokens

/-- The rules, by what they recognise. -/
inductive Rule
  | interpreterLine
  | lineComment
  | blockComment
  | doubleQuoted
  | singleQuoted
  | number
  | tag
  | punctuation
  | regular
  | operator
  deriving DecidableEq, Repr

namespace Rule

/-- Every rule, in the order in which they are tried. -/
def all : List Rule :=
  [interpreterLine, lineComment, blockComment, doubleQuoted, singleQuoted, number,
    tag, punctuation, regular, operator]

/-- Past the comment that `opening` opened, or to the end of the text. -/
def passBlock (opening : List Char) (s : Scanner) : Scanner :=
  match Lexicon.blockClosing? (.ofList opening) with
  | some closing => s.passUntilOrEnd closing
  | none => s.terminate

/-- Past a string whose opening quote has been read, or to the end of the text. -/
def passString (quote : Char) (s : Scanner) : Scanner :=
  if s.peek 1 = [quote] then s.passChar
  else s.passUntilOrEnd (Lexicon.stringEnd quote)

/-- Follow a rule from the cursor: the tokens it yields and where to go on, or
nothing if it does not apply. -/
def apply (rule : Rule) (s : Scanner) : Option (List Token × Scanner) :=
  match rule with
  | interpreterLine => do
    let (line, s) ← s.scan Lexicon.interpreterLine
    return ((Interpreter.ofLine? line).toList.map .interpreter, s)
  | lineComment => do
    guard s.atLineStart
    let (_, s) ← s.scan Lexicon.lineComment
    return ([], s.passUntil Lexicon.lineEnd)
  | blockComment => do
    let (opening, s) ← s.scan Lexicon.blockOpening
    return ([], passBlock opening s)
  | doubleQuoted => do
    let (_, s) ← s.scan (.char '"')
    return ([], passString '"' s)
  | singleQuoted => do
    let (_, s) ← s.scan (.char '\'')
    return ([], passString '\'' s)
  | number => do
    let (_, s) ← s.scan Lexicon.number
    return ([], s)
  | tag => do
    let (span, s) ← s.scan Lexicon.tagSpan
    return (Tag.tokens span, s)
  | punctuation => do
    let (t, s) ← s.scan Lexicon.punctuation
    return ([.punctuation (.ofList t)], s)
  | regular => do
    let (t, s) ← s.scan Lexicon.regular
    return ([.regular (.ofList t)], s)
  | operator => do
    let (t, s) ← s.scan Lexicon.operator
    return ([.operator (.ofList t)], s)

theorem length_rest_passBlock_le (opening : List Char) (s : Scanner) :
    (passBlock opening s).rest.length ≤ s.rest.length := by
  rw [passBlock]
  split
  · exact s.length_rest_passUntilOrEnd_le _
  · simp [Scanner.terminate]

theorem length_rest_passString_le (quote : Char) (s : Scanner) :
    (passString quote s).rest.length ≤ s.rest.length := by
  rw [passString]
  split
  · exact s.length_rest_passChar_le
  · exact s.length_rest_passUntilOrEnd_le _

/-- A rule that applies reads something. -/
theorem length_rest_lt_of_apply {rule : Rule} {s t : Scanner} {ts : List Token}
    (h : rule.apply s = some (ts, t)) : t.rest.length < s.rest.length := by
  cases rule
  case lineComment =>
    obtain ⟨_, _, h⟩ := Option.bind_eq_some_iff.mp h
    obtain ⟨⟨cs, u⟩, hu, h⟩ := Option.bind_eq_some_iff.mp h
    cases h
    exact Nat.lt_of_le_of_lt (u.length_rest_passUntil_le _)
      (Scanner.length_rest_lt_of_scan rfl hu)
  all_goals
    obtain ⟨⟨cs, u⟩, hu, h⟩ := Option.bind_eq_some_iff.mp h
    cases h
  case blockComment =>
    exact Nat.lt_of_le_of_lt (length_rest_passBlock_le _ u)
      (Scanner.length_rest_lt_of_scan rfl hu)
  case doubleQuoted | singleQuoted =>
    exact Nat.lt_of_le_of_lt (length_rest_passString_le _ u)
      (Scanner.length_rest_lt_of_scan rfl hu)
  all_goals exact Scanner.length_rest_lt_of_scan rfl hu

end Rule

end SourceTokens

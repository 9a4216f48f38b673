/-
# `SourceTokens.Regex.Basic` — regular expressions

The tree of a pattern.  Alternatives are ordered and a repetition has a direction
of preference, because a match is not any match but the preferred one; what that
means is said in `SourceTokens.Regex.Ends`.
-/
import SourceTokens.Regex.Class
import SourceTokens.Regex.Point

namespace SourceTokens.Regex

/-- Where words begin and end. -/
inductive WordBoundary
  /-- At either end of a word. -/
  | boundary
  /-- At neither end of a word. -/
  | elsewhere
  | start
  | finish
  /-- Not behind a word character. -/
  | startHalf
  /-- Not before a word character. -/
  | finishHalf
  deriving DecidableEq, Repr

/-- Whether there is such a boundary between two characters, of which it is known
whether they belong to words. -/
def WordBoundary.between (behind ahead : Bool) : WordBoundary → Bool
  | boundary => behind != ahead
  | elsewhere => behind == ahead
  | start => !behind && ahead
  | finish => behind && !ahead
  | startHalf => !behind
  | finishHalf => !ahead

/-- Conditions on a place, which read nothing.  The two ends of the text are not made
by newlines.  Those of a line are, and where `crlf` holds also by carriage returns; the
place between the two characters is no end then. -/
inductive Assertion
  | textStart
  | textEnd
  | lineStart (crlf : Bool)
  | lineEnd (crlf : Bool)
  | word (b : WordBoundary) (ascii : Bool)
  deriving DecidableEq, Repr

def Assertion.holds : Assertion → Point → Bool
  | .textStart, p => p.past.isEmpty
  | .textEnd, p => p.ahead.isEmpty
  | .lineStart crlf, p =>
    match p.past.head? with
    | none => true
    | some c => c == '\n' || (crlf && c == '\r' && p.ahead.head? != some '\n')
  | .lineEnd crlf, p =>
    match p.ahead.head? with
    | none => true
    | some c => (c == '\n' && !(crlf && p.past.head? == some '\r')) || (crlf && c == '\r')
  | .word b ascii, p => b.between (p.wordBehind ascii) (p.wordAhead ascii)

end SourceTokens.Regex

namespace SourceTokens

/-- A regular expression.  `times r lo hi lazy` is `r` at least `lo` times and at
most `hi`, without limit when `hi` is `none`; it prefers more of them, or fewer
when `lazy`. -/
inductive Regex
  | empty
  | one (a : Regex.Class)
  | assert (a : Regex.Assertion)
  | seq (r s : Regex)
  | alt (r s : Regex)
  | times (r : Regex) (lo : Nat) (hi : Option Nat) (lazy : Bool)
  deriving DecidableEq, Repr

namespace Regex

/-- One part after the other. -/
def concat : List Regex → Regex
  | [] => empty
  | r :: rs => rs.foldl seq r

/-- Any of several branches, the earlier preferred. -/
def oneOf : List Regex → Regex
  | [] => empty
  | r :: rs => rs.foldl alt r

/-- A single character. -/
def char (c : Char) : Regex := one (.char c)

/-- The characters of a text, one after the other. -/
def text (s : String) : Regex := concat (s.toList.map char)

/-- One or more, as many as possible. -/
def plus (r : Regex) : Regex := times r 1 none false

/-- Any number, as many as possible. -/
def star (r : Regex) : Regex := times r 0 none false

/-- One or none, preferably one. -/
def opt (r : Regex) : Regex := times r 0 (some 1) false

/-- The expression held to the start of the text. -/
def anchored (r : Regex) : Regex := seq (assert .textStart) r

/-- Whether the expression may match without reading.  Assertions read nothing, so
they count as empty whether or not they hold. -/
def nullable : Regex → Bool
  | empty => true
  | one _ => false
  | assert _ => true
  | seq r s => r.nullable && s.nullable
  | alt r s => r.nullable || s.nullable
  | times r lo _ _ => lo == 0 || r.nullable

end Regex

end SourceTokens

/-
# `SourceTokens.Interpreter` — the interpreter that a line names

A line such as `#!/usr/bin/python3` names its interpreter by the last part of a
path, and `#!/usr/bin/env PATH=/bin python3` leaves it to `env`, after any
settings.  The version that may follow the name is cut off.
-/
import SourceTokens.Lexicon
import SourceTokens.Scanner

namespace SourceTokens.Interpreter

/-- The part of a path after its last slash. -/
def lastPart (path : List Char) : List Char :=
  (path.reverse.takeWhile (· ≠ '/')).reverse

/-- The first run of characters that are no digits; empty if there is none. -/
def withoutVersion (name : List Char) : List Char :=
  (name.dropWhile Char.isDigit).takeWhile fun c => !c.isDigit

/-- The word that names the interpreter.  When the path leads to `env`, it is the
word after the settings. -/
def word? (line : List Char) : Option (List Char) := do
  let (_, s) ← (Scanner.ofText line).scan Lexicon.interpreterMark
  let (path, s) ← s.scan Lexicon.nonBlanks
  if lastPart path = ['e', 'n', 'v'] then
    let (name, _) ← ((s.pass Lexicon.blanks).pass Lexicon.settings).scan Lexicon.nonBlanks
    return name
  else
    return lastPart path

/-- The interpreter named by a line, if it names one. -/
def ofLine? (line : List Char) : Option String :=
  (word? line).map fun w => String.ofList (withoutVersion w)

end SourceTokens.Interpreter

/-
# `SourceTokens.Token` — tokens

A token keeps the rule it comes from; its text is what is counted and printed.
Two of the kinds have a text that the source does not spell out: a tag name is
closed by an angle bracket, and an interpreter is marked as such.
-/

namespace SourceTokens

/-- What the grammar keeps of a source. -/
inductive Token
  /-- A bracket or a semicolon. -/
  | punctuation (text : String)
  /-- A run of word characters and the few that go with them. -/
  | regular (text : String)
  | operator (text : String)
  /-- A tag name, from its opening bracket on. -/
  | tag (opening : String)
  /-- The name of an attribute with a value, through the equals sign. -/
  | assignment (text : String)
  /-- Another name within a tag. -/
  | identifier (text : String)
  /-- The interpreter that a `#!` line names. -/
  | interpreter (name : String)
  deriving DecidableEq, Repr

namespace Token

/-- What stands before the name of an interpreter. -/
def interpreterMarker : String := "SHEBANG#!"

/-- The text of a token. -/
def text : Token → String
  | punctuation t => t
  | regular t => t
  | operator t => t
  | tag t => t ++ ">"
  | assignment t => t
  | identifier t => t
  | interpreter name => interpreterMarker ++ name

/-- The interpreter named by the token, if it is one that does. -/
def interpreter? : Token → Option String
  | interpreter name => some name
  | _ => none

end Token

end SourceTokens

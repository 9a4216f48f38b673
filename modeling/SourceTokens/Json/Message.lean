/-
# `SourceTokens.Json.Message` — faults in words

Every fault belongs to one of three classes: the text ends too early, it is not
JSON, or it is JSON of another shape than was asked for.
-/
import SourceTokens.Json.Number
import SourceTokens.Text.Quoted

namespace SourceTokens.Json

/-- What kind of trouble a fault is. -/
inductive Trouble
  | ending
  | grammar
  | content
  deriving DecidableEq, Repr

namespace Found

/-- What was found, in words. -/
def describe : Found → String
  | null => "null"
  | boolean b => "boolean `" ++ toString b ++ "`"
  | integer n => "integer `" ++ toString n ++ "`"
  | floating x => "floating point `" ++ Number.floatText x ++ "`"
  | string s => "string " ++ .ofList (Text.Quoted.encode s.toList)
  | sequence => "sequence"
  | map => "map"

end Found

namespace Fault

def trouble : Fault → Trouble
  | endInValue | endInString | endInList | endInObject => .ending
  | wrongType _ _ | wrongValue _ _ | wrongLength _ _ | unknownVariant _ _
  | unknownField _ _ | duplicateField _ => .content
  | _ => .grammar

/-- A choice of names, as an expectation. -/
def oneOf (names : List String) : String :=
  ", expected one of " ++ ", ".intercalate (names.map fun n => "`" ++ n ++ "`")

/-- The fault in words. -/
def describe : Fault → String
  | endInValue => "EOF while parsing a value"
  | endInString => "EOF while parsing a string"
  | endInList => "EOF while parsing a list"
  | endInObject => "EOF while parsing an object"
  | expectedValue => "expected value"
  | expectedKeyword => "expected ident"
  | expectedColon => "expected `:`"
  | expectedListEnd => "expected `,` or `]`"
  | expectedObjectEnd => "expected `,` or `\x7d`"
  | keyMustBeString => "key must be a string"
  | trailingComma => "trailing comma"
  | trailingCharacters => "trailing characters"
  | invalidNumber => "invalid number"
  | numberOutOfRange => "number out of range"
  | controlCharacter => "control character (\\u0000-\\u001F) found while parsing a string"
  | invalidEscape => "invalid escape"
  | loneSurrogate => "lone leading surrogate in hex escape"
  | endOfEscape => "unexpected end of hex escape"
  | wrongType f e => "invalid type: " ++ f.describe ++ ", expected " ++ e
  | wrongValue f e => "invalid value: " ++ f.describe ++ ", expected " ++ e
  | wrongLength n e => "invalid length " ++ toString n ++ ", expected " ++ e
  | unknownVariant x known => "unknown variant `" ++ x ++ "`" ++ oneOf known
  | unknownField x known => "unknown field `" ++ x ++ "`" ++ oneOf known
  | duplicateField x => "duplicate field `" ++ x ++ "`"

end Fault

/-- The fault in words, with its place. -/
def Error.message (e : Error) : String :=
  e.fault.describe ++ " at line " ++ toString e.position.line ++ " column " ++
    toString e.position.column

end SourceTokens.Json

/-
# `SourceTokens.Json.Cursor` — reading JSON text, and what can go wrong

A cursor is the text still to be read with the place reached in the whole.  Places
count lines from one and columns in octets, so that the column of a place is the
number of octets of its line that have been read.

A fault is reported where it is noticed: at the cursor if the offending character
has been read, one octet further if it has only been looked at.
-/
import SourceTokens.Decimal.Shortest

namespace SourceTokens.Json

/-- A place in a text. -/
structure Position where
  line : Nat
  column : Nat
  deriving DecidableEq, Repr

namespace Position

def start : Position := ⟨1, 0⟩

/-- The place after reading the character. -/
def past (p : Position) (c : Char) : Position :=
  if c = '\n' then ⟨p.line + 1, 0⟩ else ⟨p.line, p.column + c.utf8Size⟩

/-- The place after the first octet of the character. -/
def octetInto (p : Position) (c : Char) : Position :=
  if c = '\n' then ⟨p.line + 1, 0⟩ else ⟨p.line, p.column + 1⟩

end Position

/-- What stands where something else was expected. -/
inductive Found
  | null
  | boolean (b : Bool)
  | integer (n : Int)
  | floating (x : Float)
  | string (s : String)
  | sequence
  | map

/-- Why a text cannot be read. -/
inductive Fault
  | endInValue
  | endInString
  | endInList
  | endInObject
  | expectedValue
  | expectedKeyword
  | expectedColon
  | expectedListEnd
  | expectedObjectEnd
  | keyMustBeString
  | trailingComma
  | trailingCharacters
  | invalidNumber
  | numberOutOfRange
  | controlCharacter
  | invalidEscape
  | loneSurrogate
  | endOfEscape
  | wrongType (found : Found) (expected : String)
  | wrongValue (found : Found) (expected : String)
  | wrongLength (length : Nat) (expected : String)
  | unknownVariant (name : String) (known : List String)
  | unknownField (name : String) (known : List String)
  | duplicateField (name : String)

/-- A fault and where it was noticed. -/
structure Error where
  fault : Fault
  position : Position

/-- The text still to be read, and the place reached. -/
structure Cursor where
  rest : List Char
  position : Position
  deriving DecidableEq, Repr

namespace Cursor

def ofText (text : List Char) : Cursor := ⟨text, .start⟩

/-- The next character. -/
def peek (c : Cursor) : Option Char := c.rest.head?

/-- Past the next character. -/
def bump (c : Cursor) : Cursor :=
  match c.rest with
  | [] => c
  | d :: rest => ⟨rest, c.position.past d⟩

/-- Past the characters for which `p` holds. -/
def bumpWhile (p : Char → Bool) (c : Cursor) : Cursor :=
  ⟨c.rest.dropWhile p, (c.rest.takeWhile p).foldl .past c.position⟩

/-- Past spaces, tabs, newlines and carriage returns, which are the only blanks. -/
def skipBlank : Cursor → Cursor :=
  bumpWhile fun c => c == ' ' || c == '\n' || c == '\t' || c == '\r'

/-- Past what is left. -/
def finish (c : Cursor) : Cursor := c.bumpWhile fun _ => true

/-- Past so many octets, or to the end.  The place may be within a character, and
then only serves to report it. -/
def positionAfter : Nat → List Char → Position → Position
  | 0, _, p => p
  | _ + 1, [], p => p
  | n + 1, c :: cs, p =>
    if c.utf8Size ≤ n + 1 then positionAfter (n + 1 - c.utf8Size) cs (p.past c)
    else ⟨p.line, p.column + n + 1⟩
termination_by _ cs => cs.length

/-- Report a fault at the cursor. -/
def fail {α : Type} (c : Cursor) (f : Fault) : Except Error α :=
  .error ⟨f, c.position⟩

/-- Report a fault at the character after the cursor. -/
def failAhead {α : Type} (c : Cursor) (f : Fault) : Except Error α :=
  .error ⟨f, match c.rest with
    | [] => c.position
    | d :: _ => c.position.octetInto d⟩

end Cursor

end SourceTokens.Json

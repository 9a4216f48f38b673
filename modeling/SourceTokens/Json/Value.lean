/-
# `SourceTokens.Json.Value` — documents

Values that are written as JSON, in one of two layouts: without any blanks, or with
each member on a line of its own.  An empty array takes no lines in either.
-/
import SourceTokens.Json.Quoted

namespace SourceTokens.Json

/-- A document, or a part of one. -/
inductive Value
  | null
  | boolean (b : Bool)
  | natural (n : Nat)
  | string (s : String)
  | array (vs : List Value)
  | object (fields : List (String × Value))

namespace Value

/-- The value of an optional part. -/
def ofOption {α : Type} (f : α → Value) : Option α → Value
  | none => null
  | some a => f a

/-- How parts are set: what stands before each part at some depth, what stands before
the closing bracket, and what follows a key. -/
structure Layout where
  before : Nat → String
  closing : Nat → String
  afterKey : String

/-- No blanks at all. -/
def Layout.compact : Layout := ⟨fun _ => "", fun _ => "", ":"⟩

/-- One part to a line, indented by two spaces for each bracket around it. -/
def Layout.indented : Layout :=
  let line (depth : Nat) := "\n" ++ String.ofList (List.replicate (2 * depth) ' ')
  ⟨fun depth => line (depth + 1), line, ": "⟩

mutual

/-- The written form of a value within `depth` brackets. -/
def write (l : Layout) (depth : Nat) : Value → String
  | null => "null"
  | boolean b => toString b
  | natural n => toString n
  | string s => Quoted.encode s
  | array [] => "[]"
  | array (v :: vs) =>
    "[" ++ l.before depth ++ write l (depth + 1) v ++ writeRest l depth vs ++
      l.closing depth ++ "]"
  | object [] => "\x7b\x7d"
  | object ((k, v) :: fields) =>
    "\x7b" ++ l.before depth ++ Quoted.encode k ++ l.afterKey ++ write l (depth + 1) v ++
      writeFields l depth fields ++ l.closing depth ++ "\x7d"

/-- The elements after the first. -/
def writeRest (l : Layout) (depth : Nat) : List Value → String
  | [] => ""
  | v :: vs => "," ++ l.before depth ++ write l (depth + 1) v ++ writeRest l depth vs

/-- The fields after the first. -/
def writeFields (l : Layout) (depth : Nat) : List (String × Value) → String
  | [] => ""
  | (k, v) :: fields =>
    "," ++ l.before depth ++ Quoted.encode k ++ l.afterKey ++ write l (depth + 1) v ++
      writeFields l depth fields

end

/-- The value on one line. -/
def compact (v : Value) : String := v.write .compact 0

/-- The value over several lines. -/
def indented (v : Value) : String := v.write .indented 0

end Value

end SourceTokens.Json

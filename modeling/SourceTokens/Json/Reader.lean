/-
# `SourceTokens.Json.Reader` — values of a known shape

Readers for the values that a configuration holds.  Each is told what it reads, and
what stands there instead is taken far enough to be named: a scalar is read to its
end and the fault reported after it, a list or an object is not entered.
-/
import SourceTokens.Json.Number
import SourceTokens.Json.Quoted

namespace SourceTokens.Json

/-- Past the rest of a keyword. -/
def keyword : List Char → Cursor → Except Error Cursor
  | [], c => pure c
  | k :: ks, c =>
    match c.rest with
    | [] => c.fail .endInValue
    | d :: _ => if d = k then keyword ks c.bump else c.failAhead .expectedKeyword

/-- Name what stands at the cursor in the place of what was expected. -/
def unexpected {α : Type} (expected : String) (c : Cursor) : Except Error α :=
  match c.peek with
  | some 'n' => do (← keyword ['u', 'l', 'l'] c.bump).fail (.wrongType .null expected)
  | some 't' => do
    (← keyword ['r', 'u', 'e'] c.bump).fail (.wrongType (.boolean true) expected)
  | some 'f' => do
    (← keyword ['a', 'l', 's', 'e'] c.bump).fail (.wrongType (.boolean false) expected)
  | some '-' => do
    let (n, c) ← Number.read true c.bump
    c.fail (.wrongType n.found expected)
  | some '"' => do
    let (s, c) ← Quoted.body c.bump []
    c.fail (.wrongType (.string s) expected)
  | some '[' => c.fail (.wrongType .sequence expected)
  | some '\x7b' => c.fail (.wrongType .map expected)
  | some d =>
    if d.isDigit then do
      let (n, c) ← Number.read false c
      c.fail (.wrongType n.found expected)
    else c.failAhead .expectedValue
  | none => c.failAhead .expectedValue

/-- Past blanks, to the first character of a value. -/
def value (c : Cursor) : Except Error (Char × Cursor) :=
  let c := c.skipBlank
  match c.peek with
  | some d => pure (d, c)
  | none => c.failAhead .endInValue

/-- Nothing, or what `read` reads. -/
def nullOr {α : Type} (read : Cursor → Except Error (α × Cursor)) (c : Cursor) :
    Except Error (Option α × Cursor) := do
  let c := c.skipBlank
  if c.peek = some 'n' then
    return (none, ← keyword ['u', 'l', 'l'] c.bump)
  else
    let (a, c) ← read c
    return (some a, c)

/-- The keyword `null`. -/
def null (c : Cursor) : Except Error Cursor := do
  let (d, c) ← value c
  if d = 'n' then keyword ['u', 'l', 'l'] c.bump else unexpected "unit" c

def boolean (c : Cursor) : Except Error (Bool × Cursor) := do
  let (d, c) ← value c
  if d = 't' then return (true, ← keyword ['r', 'u', 'e'] c.bump)
  else if d = 'f' then return (false, ← keyword ['a', 'l', 's', 'e'] c.bump)
  else unexpected "a boolean" c

/-- A whole number of 64 bits. -/
def word64 (c : Cursor) : Except Error (UInt64 × Cursor) := do
  let (d, c) ← value c
  let (n, c) ←
    if d = '-' then Number.read true c.bump
    else if d.isDigit then Number.read false c
    else unexpected "u64" c
  match n with
  | .natural n => return (.ofNat n, c)
  | .negative _ => c.fail (.wrongValue n.found "u64")
  | .floating _ => c.fail (.wrongType n.found "u64")

/-- A string; `expected` says what for. -/
def string (expected : String) (c : Cursor) : Except Error (String × Cursor) := do
  let (d, c) ← value c
  if d = '"' then Quoted.body c.bump [] else unexpected expected c

/-- Past the colon after a key. -/
def colon (c : Cursor) : Except Error Cursor :=
  let c := c.skipBlank
  match c.peek with
  | some ':' => pure c.bump
  | some _ => c.failAhead .expectedColon
  | none => c.failAhead .endInObject

/-! ## Lists -/

/-- Whether another element follows, and the cursor before it.  The closing bracket
is left for `listEnd`. -/
def nextElement (first : Bool) (c : Cursor) : Except Error (Bool × Cursor) :=
  let c := c.skipBlank
  match c.peek with
  | none => c.failAhead .endInList
  | some ']' => pure (false, c)
  | some d =>
    if first then pure (true, c)
    else if d = ',' then
      let c := c.bump.skipBlank
      match c.peek with
      | some ']' => c.failAhead .trailingComma
      | some _ => pure (true, c)
      | none => c.failAhead .endInValue
    else c.failAhead .expectedListEnd

/-- Past the end of a list that is to have no more elements. -/
def listEnd (c : Cursor) : Except Error Cursor :=
  let c := c.skipBlank
  match c.peek with
  | some ']' => pure c.bump
  | some ',' =>
    let c := c.bump.skipBlank
    c.failAhead (if c.peek = some ']' then .trailingComma else .trailingCharacters)
  | some _ => c.failAhead .trailingCharacters
  | none => c.failAhead .endInList

/-! ## Objects -/

/-- The next key of an object, if another follows.  The closing brace is left. -/
def nextKey (first : Bool) (c : Cursor) : Except Error (Option String × Cursor) :=
  let c := c.skipBlank
  let key (c : Cursor) : Except Error (Option String × Cursor) := do
    let (s, c) ← Quoted.body c.bump []
    return (some s, c)
  match c.peek with
  | none => c.failAhead .endInObject
  | some '\x7d' => pure (none, c)
  | some d =>
    if first then if d = '"' then key c else c.failAhead .keyMustBeString
    else if d = ',' then
      let c := c.bump.skipBlank
      match c.peek with
      | some '"' => key c
      | some '\x7d' => c.failAhead .trailingComma
      | some _ => c.failAhead .keyMustBeString
      | none => c.failAhead .endInValue
    else c.failAhead .expectedObjectEnd

/-- Where the shape of an object is found wrong: after the key, or after the end of
the object if nothing else follows the key. -/
def objectFault {α : Type} (f : Fault) (c : Cursor) : Except Error α :=
  let c := c.skipBlank
  if c.peek = some '\x7d' then c.bump.fail f else c.fail f

end SourceTokens.Json

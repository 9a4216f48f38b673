/-
# `SourceTokens.Json.Number` — numbers

An integer that fits 64 bits is kept exactly; any other number becomes a double,
and so does `-0`.  The double is reckoned in three steps: as many digits as fit 64
bits are taken for a whole number, that is rounded to a double, and the double is
multiplied or divided by a power of ten.
-/
import SourceTokens.Json.Cursor

namespace SourceTokens.Json

/-- A number that has been read. -/
inductive Number
  | natural (n : Nat)
  /-- The integer `-n`. -/
  | negative (n : Nat)
  | floating (x : Float)

/-- What stands in the place of something that is no number. -/
def Number.found : Number → Found
  | natural n => .integer n
  | negative n => .integer (-n)
  | floating x => .floating x

namespace Number

/-! ## Reading the digits -/

def digitValue (c : Char) : Nat := c.toNat - '0'.toNat

/-- Take the digits in as long as the number stays below the limit, and give those
that are left. -/
def absorb (limit : Nat) (n : Nat) : List Char → Nat × List Char
  | [] => (n, [])
  | d :: ds =>
    if n * 10 + digitValue d < limit then absorb limit (n * 10 + digitValue d) ds
    else (n, d :: ds)

/-- The digits at the cursor, and the cursor past them. -/
def digits (c : Cursor) : List Char × Cursor :=
  (c.rest.takeWhile Char.isDigit, c.bumpWhile Char.isDigit)

/-- The significant digits of a number and the power of ten they are to be taken
with. -/
structure Scaled where
  significand : Nat
  exponent : Int
  deriving DecidableEq, Repr

/-- Digits before the point: those that do not fit count for their place alone. -/
def Scaled.whole (ds : List Char) : Scaled :=
  let (n, left) := absorb (Nat.pow 2 64) 0 ds
  ⟨n, left.length⟩

/-- Digits after the point: those that do not fit are dropped. -/
def Scaled.fraction (s : Scaled) (ds : List Char) : Scaled :=
  let (n, left) := absorb (Nat.pow 2 64) s.significand ds
  ⟨n, s.exponent - (ds.length - left.length : Nat)⟩

/-! ## Doubles -/

/-- `x · 10 ^ e`, or nothing if that is too large.  Powers up to `10 ^ 308` are taken
in one step; beyond that a quotient is taken in several. -/
def timesPower (x : Float) (e : Int) : Option Float :=
  if 0 ≤ e then
    if e ≤ 308 then
      let y := x * Float.ofScientific 1 false e.toNat
      if y.isInf then none else some y
    else if x == 0 then some x else none
  else if -308 ≤ e then some (x / Float.ofScientific 1 false (-e).toNat)
  else if x == 0 then some x
  else timesPower (x / Float.ofScientific 1 false 308) (e + 308)
termination_by e.natAbs

/-- The double that scaled digits stand for. -/
def Scaled.toFloat? (s : Scaled) : Option Float :=
  timesPower (UInt64.ofNat s.significand).toFloat s.exponent

def signed (negative : Bool) (x : Float) : Float := if negative then -x else x

/-! ## Reading -/

/-- The digits after the point, at least one. -/
def fractionPart (s : Scaled) (c : Cursor) : Except Error (Scaled × Cursor) :=
  let (ds, c') := digits c
  if ds = [] then c.failAhead (if c.rest = [] then .endInValue else .invalidNumber)
  else pure (s.fraction ds, c')

/-- The sign of an exponent. -/
def exponentSign (c : Cursor) : Bool × Cursor :=
  match c.peek with
  | some '+' => (false, c.bump)
  | some '-' => (true, c.bump)
  | _ => (false, c)

/-- The exponent after its letter, and the double it leads to.  An exponent of more
than 31 bits makes the number zero or too large, whatever its digits. -/
def exponentPart (negative : Bool) (s : Scaled) (c : Cursor) :
    Except Error (Number × Cursor) := do
  let (down, c) := exponentSign c
  let (ds, c') := digits c
  if ds = [] then
    c.failAhead (if c.rest = [] then .endInValue else .invalidNumber)
  else match absorb (Nat.pow 2 31) 0 ds with
    | (n, []) =>
      match (⟨s.significand, if down then s.exponent - n else s.exponent + n⟩ :
          Scaled).toFloat? with
      | some x => pure (.floating (signed negative x), c')
      | none => c'.fail .numberOutOfRange
    | (_, left) =>
      if s.significand ≠ 0 ∧ !down then
        let taken := ds.take (ds.length - left.length + 1)
        .error ⟨.numberOutOfRange, taken.foldl .past c.position⟩
      else pure (.floating (signed negative 0), c')

/-- The double without an exponent. -/
def plainDouble (negative : Bool) (s : Scaled) (c : Cursor) :
    Except Error (Number × Cursor) :=
  match s.toFloat? with
  | some x => pure (.floating (signed negative x), c)
  | none => c.fail .numberOutOfRange

/-- What the digits before the point stand for if nothing follows them. -/
def integer (negative : Bool) (s : Scaled) (c : Cursor) :
    Except Error (Number × Cursor) :=
  if s.exponent ≠ 0 then plainDouble negative s c
  else if !negative then pure (.natural s.significand, c)
  else if s.significand = 0 ∨ Nat.pow 2 63 < s.significand then plainDouble true s c
  else pure (.negative s.significand, c)

/-- Whether the exponent begins here. -/
def atExponent (c : Cursor) : Bool := c.peek == some 'e' || c.peek == some 'E'

/-- The number at the cursor, its sign already read.  A zero in front stands alone. -/
def read (negative : Bool) (c : Cursor) : Except Error (Number × Cursor) := do
  let (ds, c') := digits c
  match ds with
  | [] => c.failAhead (if c.rest = [] then .endInValue else .invalidNumber)
  | '0' :: _ :: _ => c.bump.failAhead .invalidNumber
  | ds =>
    let s := Scaled.whole ds
    if c'.peek = some '.' then
      let (s, c) ← fractionPart s c'.bump
      if atExponent c then exponentPart negative s c.bump else plainDouble negative s c
    else if atExponent c' then exponentPart negative s c'.bump
    else integer negative s c'

/-! ## Writing doubles -/

/-- How a double is written: its shortest digits, plainly and with a point as long as
that takes no more than sixteen digits before it and no more than four zeros after
it, else with one digit before the point and a signed exponent. -/
def floatText (x : Float) : String :=
  let d := Decimal.ofBits x.toBits
  let ds := toString d.digits
  let point : Int := ds.length + d.exponent
  let sign := if x.toBits.toNat / Nat.pow 2 63 = 1 then "-" else ""
  let zeros (n : Int) : String := String.ofList (List.replicate n.toNat '0')
  sign ++
    if d.digits = 0 then "0.0"
    else if 0 < point ∧ point ≤ 16 then
      if 0 ≤ d.exponent then ds ++ zeros d.exponent ++ ".0"
      else String.ofList (ds.toList.take point.toNat) ++ "." ++
        String.ofList (ds.toList.drop point.toNat)
    else if -5 < point ∧ point ≤ 0 then "0." ++ zeros (-point) ++ ds
    else
      let tail := ds.toList.drop 1
      String.ofList (ds.toList.take 1) ++
        (if tail = [] then "" else "." ++ String.ofList tail) ++
        (if 0 < point then "e+" else "e-") ++ toString (point - 1).natAbs

end Number

end SourceTokens.Json

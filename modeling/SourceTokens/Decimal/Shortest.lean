/-
# `SourceTokens.Decimal.Shortest` — the fewest digits that read back

A double stands for every real that rounds to it.  Its shortest decimal is the one
with the fewest digits among those reals, and of several the one nearest to the
double itself.

The reals that round to `m · 2 ^ q` lie between the points half way to the two
neighbours, both included when `m` is even.  In units of a quarter of `2 ^ q` the
double is `4 m`, the upper half-way point `4 m + 2`, and the lower one `4 m - 2`,
or `4 m - 1` when the lower neighbour is only half as far away.  On a decimal grid
only the two points around the double need to be looked at, and all comparisons are
between natural numbers.
-/

namespace SourceTokens.Decimal

/-- `digits · 10 ^ exponent`. -/
structure Scientific where
  digits : Nat
  exponent : Int
  deriving DecidableEq, Repr

/-- A positive real and the interval that rounds to it, as fractions over one
denominator. -/
structure Interval where
  value : Nat
  lower : Nat
  upper : Nat
  closed : Bool
  denominator : Nat
  deriving DecidableEq, Repr

namespace Interval

/-- The interval of the double `m · 2 ^ q`; `narrow` says that the neighbour below
is half as far away as the one above. -/
def ofDouble (m : Nat) (q : Int) (narrow : Bool) : Interval :=
  let unit := Nat.pow 2 (q - 2).toNat
  { value := 4 * m * unit
    lower := (if narrow then 4 * m - 1 else 4 * m - 2) * unit
    upper := (4 * m + 2) * unit
    closed := m % 2 == 0
    denominator := Nat.pow 2 (2 - q).toNat }

/-- Whether the interval holds `x / denominator`. -/
def holds (i : Interval) (x : Nat) : Bool :=
  if i.closed then i.lower ≤ x && x ≤ i.upper else i.lower < x && x < i.upper

/-- The interval measured in units of `10 ^ k`. -/
def scale (i : Interval) (k : Int) : Interval :=
  let f := Nat.pow 10 (-k).toNat
  { i with
    value := i.value * f
    lower := i.lower * f
    upper := i.upper * f
    denominator := i.denominator * Nat.pow 10 k.toNat }

/-- The whole number in the interval that is nearest to the value. -/
def nearest? (i : Interval) : Option Nat :=
  let d := i.denominator
  let below := i.value / d
  let above := below + 1
  match i.holds (below * d), i.holds (above * d) with
  | true, true => some (if 2 * (i.value - below * d) ≤ d then below else above)
  | true, false => some below
  | false, true => some above
  | false, false => none

/-- The number of decimal digits; zero has none. -/
def digitCount (n : Nat) : Nat := if n = 0 then 0 else (Nat.toDigits 10 n).length

/-- The place of the first digit of the value: the value is at least `10 ^ place` and
below `10 ^ (place + 1)`. -/
def place (i : Interval) : Int :=
  if i.denominator ≤ i.value then digitCount (i.value / i.denominator) - 1
  else -digitCount ((i.denominator - 1) / i.value)

/-- The decimal with the fewest digits, beginning with the coarsest of the grids
given by their number of digits. -/
def shortestOf (i : Interval) : List Nat → Option Scientific
  | [] => none
  | n :: ns =>
    let k := i.place - n + 1
    match (i.scale k).nearest? with
    | some d => some ⟨d, k⟩
    | none => i.shortestOf ns

end Interval

/-- Leave out trailing zeros.  The fuel is a bound on their number. -/
def trim : Nat → Scientific → Scientific
  | 0, d => d
  | n + 1, d =>
    if d.digits % 10 = 0 ∧ d.digits ≠ 0 then trim n ⟨d.digits / 10, d.exponent + 1⟩ else d

/-- The shortest decimal of the magnitude of a finite double.  Seventeen digits are
always enough. -/
def ofBits (bits : UInt64) : Scientific :=
  let fraction : Nat := bits.toNat % Nat.pow 2 52
  let biased : Nat := bits.toNat / Nat.pow 2 52 % Nat.pow 2 11
  let i :=
    if biased = 0 then Interval.ofDouble fraction (-1074) false
    else .ofDouble (Nat.pow 2 52 + fraction) (biased - 1075) (fraction == 0 && 1 < biased)
  if i.value = 0 then ⟨0, 0⟩
  else trim 17 ((i.shortestOf (List.range' 1 17)).getD ⟨0, 0⟩)

end SourceTokens.Decimal

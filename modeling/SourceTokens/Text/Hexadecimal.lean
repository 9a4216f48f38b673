/-
# `SourceTokens.Text.Hexadecimal` — numbers in base sixteen

Escapes give characters by number: patterns, quoted text and JSON all write that
number in base sixteen.  Digits are read in either case and written in lower case.
-/

namespace SourceTokens.Text.Hexadecimal

/-- The value of a digit. -/
def digit? (c : Char) : Option Nat :=
  if '0' ≤ c ∧ c ≤ '9' then some (c.toNat - '0'.toNat)
  else if 'a' ≤ c ∧ c ≤ 'f' then some (c.toNat - 'a'.toNat + 10)
  else if 'A' ≤ c ∧ c ≤ 'F' then some (c.toNat - 'A'.toNat + 10)
  else none

/-- The number that a list of digits writes; no digits write zero. -/
def value? (ds : List Char) : Option Nat :=
  ds.foldlM (fun n d => (n * 16 + ·) <$> digit? d) 0

/-- The digits of a number. -/
def digits (n : Nat) : List Char := Nat.toDigits 16 n

end SourceTokens.Text.Hexadecimal

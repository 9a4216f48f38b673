/-
# `SourceTokens.Text.Property` — sets of characters as inversion lists

A set of code points is written as the increasing list of the places where
membership changes: `[a, b, c, d]` holds `a ≤ x < b` and `c ≤ x < d`.  The
tables beside this file are the character properties that patterns and quoted
text consult; each is such a list.
-/

namespace SourceTokens.Text

/-- `inside bounds x`: an odd number of the bounds are at most `x`.  The list is
increasing, so the walk stops at the first bound above `x`. -/
def inside : List Nat → Nat → Bool
  | [], _ => false
  | b :: bounds, x => if x < b then false else !inside bounds x

end SourceTokens.Text

/-
# `SourceTokens.Counts` — how often each text occurs

Counts list every text once, in the order of first occurrence.
-/

namespace SourceTokens

/-- Texts with the number of their occurrences. -/
abbrev Counts := List (String × Nat)

namespace Counts

/-- Count one more occurrence. -/
def add (s : String) : Counts → Counts
  | [] => [(s, 1)]
  | (t, n) :: counts => if t = s then (t, n + 1) :: counts else (t, n) :: add s counts

/-- The counts of a list. -/
def ofList (ss : List String) : Counts := ss.foldl (fun counts s => add s counts) []

theorem ofList_append (ss ts : List String) :
    ofList (ss ++ ts) = ts.foldl (fun counts s => add s counts) (ofList ss) := by
  simp [ofList]

end Counts

end SourceTokens

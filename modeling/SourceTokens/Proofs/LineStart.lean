/-
# `SourceTokens.Proofs.LineStart` — the start of a line

A scanner does not take the place after a newline for the start of a line when that
newline is the first character of the text (`Scanner.atLineStart`); the plain notion
takes every place before the first character or after a newline (`Scanner.startsLine`).
The loop comes to places where the two differ, but it cannot tell them apart.  Only a
comment up to the end of its line asks for the start of one, the blanks before its mark
belong to it, and so a comment that begins after the first newline is passed over from
that newline on: the loop does not stop in between.

`tokensBy` is the loop with the notion left open.  Two notions that give the same step
wherever the loop comes to stand give the same tokens (`collectBy_eq`).
-/
import SourceTokens.Proofs.Loop

namespace SourceTokens

open Direct

namespace Rule

/-- Follow a rule from the cursor, as `apply` does, where `lineStart` tells whether a
line starts there. -/
def applyBy (lineStart : Scanner → Bool) (rule : Rule) (s : Scanner) :
    Option (List Token × Scanner) :=
  match rule with
  | lineComment => do
    guard (lineStart s)
    let (_, s) ← s.scan Lexicon.lineComment
    return ([], s.passUntil Lexicon.lineEnd)
  | rule => rule.apply s

theorem applyBy_atLineStart (rule : Rule) : rule.applyBy Scanner.atLineStart = rule.apply := by
  cases rule <;> rfl

theorem applyBy_of_ne {rule : Rule} (hrule : rule ≠ .lineComment)
    (lineStart : Scanner → Bool) : rule.applyBy lineStart = rule.apply := by
  cases rule
  case lineComment => exact absurd rfl hrule
  all_goals rfl

theorem applyBy_eq (lineStart : Scanner → Bool) (rule : Rule) (s : Scanner) :
    rule.applyBy lineStart s
      = (Direct.read rule (lineStart s) s.rest).map fun (ts, t) => (ts, s.upTo t) := by
  by_cases hrule : rule = .lineComment
  · subst hrule
    exact scan_lineComment s (lineStart s)
  · rw [applyBy_of_ne hrule, apply_eq, read_congr hrule s.atLineStart (lineStart s)]

end Rule

namespace Source

variable {lineStart : Scanner → Bool} {s : Scanner}

/-- One step of the loop, where `lineStart` tells the starts of lines. -/
def stepBy (lineStart : Scanner → Bool) (s : Scanner) : List Token × Scanner :=
  (Rule.all.findSome? (·.applyBy lineStart s)).getD ([], s.passChar)

theorem stepBy_eq (lineStart : Scanner → Bool) (s : Scanner) :
    stepBy lineStart s = ((Direct.step (lineStart s) s.rest).1,
      s.upTo (Direct.step (lineStart s) s.rest).2) :=
  step_of_reads fun rule => rule.applyBy_eq lineStart s

/-- Every step reads something. -/
theorem length_rest_stepBy_lt (lineStart : Scanner → Bool) (hs : s.rest ≠ []) :
    (stepBy lineStart s).2.rest.length < s.rest.length := by
  rw [stepBy_eq]
  exact length_lt_of_suffix_tail hs (step_suffix _ _)

/-- The tokens from the cursor on, after those already found, where `lineStart` tells
the starts of lines. -/
def collectBy (lineStart : Scanner → Bool) (s : Scanner) (found : Array Token) :
    Array Token :=
  if h : s.rest = [] then found
  else
    have := length_rest_stepBy_lt lineStart h
    collectBy lineStart (stepBy lineStart s).2 (found ++ (stepBy lineStart s).1)
termination_by s.rest.length

/-- The tokens of a text, where `lineStart` tells the starts of lines. -/
def tokensBy (lineStart : Scanner → Bool) (text : String) : List Token :=
  (collectBy lineStart (.ofText text.toList) #[]).toList

theorem stepBy_atLineStart (s : Scanner) : stepBy Scanner.atLineStart s = step s := by
  simp only [stepBy, step, Rule.applyBy_atLineStart]

/-- Where the loop stands after a newline that is the first character of the text, no
comment begins, and so it does not matter whether a line starts. -/
theorem stepBy_startsLine (hs : s.Settled) : stepBy Scanner.startsLine s = step s := by
  rw [stepBy_eq, step_eq_upTo hs]

theorem collectBy_eq (hstep : ∀ t, Visits s t → stepBy lineStart t = step t)
    (found : Array Token) : collectBy lineStart s found = collect s found := by
  fun_induction collect s found with
  | case1 s found hs => rw [collectBy, dif_pos hs]
  | case2 s found hs _ ih =>
    rw [collectBy, dif_neg hs]
    show collectBy lineStart (stepBy lineStart s).2 _ = _
    rw [hstep s (.here s)]
    refine ih ?_
    intro t ht
    exact hstep t (.later hs ht)

/-- The loop finds the same tokens whether or not the place after a newline that is the
first character of the text counts as the start of a line. -/
theorem tokensBy_startsLine (text : String) :
    tokensBy Scanner.atLineStart text = tokens text ∧
      tokensBy Scanner.startsLine text = tokens text := by
  have hscanner : ∀ t, Visits (.ofText text.toList) t →
      stepBy Scanner.atLineStart t = step t := by
    intro t _
    exact stepBy_atLineStart t
  have hplain : ∀ t, Visits (.ofText text.toList) t →
      stepBy Scanner.startsLine t = step t := by
    intro t ht
    exact stepBy_startsLine (settled_of_visits ht (Scanner.settled_ofText _))
  rw [tokensBy, tokensBy, collectBy_eq hscanner, collectBy_eq hplain]
  exact ⟨rfl, rfl⟩

/-- The two notions differ at a place to which the loop comes. -/
example : (step (.ofText "\na".toList)).2 = ⟨['\n'], ['a']⟩ ∧
    Scanner.atLineStart ⟨['\n'], ['a']⟩ ≠ Scanner.startsLine ⟨['\n'], ['a']⟩ := by
  rw [step_eq]
  decide

end Source

end SourceTokens

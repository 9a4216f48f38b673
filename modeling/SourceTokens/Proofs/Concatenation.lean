/-
# `SourceTokens.Proofs.Concatenation` — the tokens of two texts, one after the other

A run that comes to stand at the end of a text that ends with a newline has found the
tokens of that text, whatever comes after.  What it does from there on it does at the
start of a line, as at the start of a text.
-/
import SourceTokens.Proofs.Prefix

namespace SourceTokens.Source

open Direct

/-- A run that comes to stand between two texts, the first of which ends with a newline,
finds the tokens of the one and then those of the other. -/
theorem tokens_append (first second : String)
    (hline : first.toList.getLast? = some '\n')
    (hvisits : ∃ s, Visits (.ofText (first ++ second).toList) s
      ∧ s.pos = Scanner.octets first.toList) :
    tokens (first ++ second) = tokens first ++ tokens second := by
  obtain ⟨s, hvisits, hpos⟩ := hvisits
  have htext : s.text = first.toList ++ second.toList := by
    rw [← String.toList_append]
    exact text_of_visits hvisits
  obtain ⟨hpassed, hrest⟩ := Scanner.eq_of_pos_eq htext hpos
  have hstart : s.startsLine = true := by
    rw [Scanner.startsLine, ← List.getLast?_reverse, hpassed, hline]
    rfl
  rw [tokens_eq_tokensFrom, tokens_eq_tokensFrom, tokens_eq_tokensFrom, String.toList_append]
  by_cases hs : s.rest = []
  · rw [← hrest, hs, List.append_nil, tokensFrom_nil, List.append_nil]
  · have hwhole : (Scanner.ofText (first ++ second).toList).rest
        = first.toList ++ s.rest := by
      rw [hrest]
      exact String.toList_append
    have hrun := tokensFrom_of_visits hvisits (Scanner.settled_ofText _) hwhole hs
    rw [hwhole, hrest, hstart] at hrun
    exact hrun

/-- A word and the newline after it, and then a comment. -/
theorem tokens_append_comment :
    tokens ("a\n" ++ "# b") = tokens "a\n" ++ tokens "# b" := by
  have hword : (step (.ofText "a\n# b".toList)).2 = ⟨['a'], "\n# b".toList⟩ := by
    rw [step_eq]
    decide
  have hnewline : (step ⟨['a'], "\n# b".toList⟩).2 = ⟨['\n', 'a'], "# b".toList⟩ := by
    rw [step_eq]
    decide
  exact tokens_append "a\n" "# b" (by decide)
    ⟨_, .of_step (by decide) hword (.of_step (by decide) hnewline (.here _)), by decide⟩

end SourceTokens.Source

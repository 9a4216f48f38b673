/-
# `SourceTokens.Proofs.Interpreter` — what names an interpreter

The name of an interpreter is a stretch of the line that names it, and it holds neither
blanks nor digits: the word it is cut out of is a run of other characters, and the cut
is made at the digits.
-/
import SourceTokens.Interpreter
import SourceTokens.Proofs.Cursor
import SourceTokens.Proofs.Lexicon

namespace SourceTokens.Interpreter

open Direct

variable {line path name w : List Char}

theorem lastPart_infix (path : List Char) : lastPart path <:+: path := by
  have hfront := List.takeWhile_prefix (fun c => decide (c ≠ '/')) (l := path.reverse)
  rw [lastPart]
  exact (List.reverse_prefix.mp (by rwa [List.reverse_reverse])).isInfix

theorem withoutVersion_infix (name : List Char) : withoutVersion name <:+: name :=
  (List.takeWhile_prefix _).isInfix.trans (List.dropWhile_suffix _).isInfix

theorem not_isDigit_of_mem_withoutVersion {c : Char} (h : c ∈ withoutVersion name) :
    c.isDigit = false := by
  simpa [withoutVersion] using of_mem_takeWhile h

/-- A run of characters that are no blanks. -/
theorem eq_of_scan_nonBlanks {s t : Scanner}
    (h : s.scan Lexicon.nonBlanks = some (w, t)) : w = s.rest.takeWhile (!isBlank ·) := by
  rw [Scanner.scan_eq rfl, Lexicon.matchRest?_nonBlanks] at h
  obtain ⟨u, hu, hw⟩ := Option.map_eq_some_iff.mp h
  obtain ⟨_, hu⟩ := Option.ite_none_left_eq_some.mp hu
  cases hu
  cases hw
  exact Scanner.before_of_eq List.takeWhile_append_dropWhile.symm

theorem not_isBlank_of_mem_takeWhile {cs : List Char} {c : Char}
    (h : c ∈ cs.takeWhile (!isBlank ·)) : isBlank c = false := by
  simpa using of_mem_takeWhile h

/-- The word that names an interpreter is a stretch of the line, and it is not broken by
blanks. -/
theorem of_word? (h : word? line = some w) :
    w <:+: line ∧ ∀ c ∈ w, isBlank c = false := by
  obtain ⟨⟨mark, s⟩, hmark, h⟩ := Option.bind_eq_some_iff.mp h
  obtain ⟨⟨path, t⟩, hpath, h⟩ := Option.bind_eq_some_iff.mp h
  have hs : s.rest <:+ line := ⟨mark, (Scanner.rest_of_scan hmark).symm⟩
  have ht : t.rest <:+ line := List.IsSuffix.trans ⟨path, (Scanner.rest_of_scan hpath).symm⟩ hs
  have hrun : ∀ v : Scanner, v.rest <:+ line →
      v.rest.takeWhile (!isBlank ·) <:+: line := by
    intro v hv
    exact (List.takeWhile_prefix _).isInfix.trans hv.isInfix
  dsimp only at h
  split at h
  case isTrue =>
    obtain ⟨⟨name, u⟩, hname, h⟩ := Option.bind_eq_some_iff.mp h
    cases h
    rw [eq_of_scan_nonBlanks hname]
    refine ⟨hrun _ ?_, fun c => not_isBlank_of_mem_takeWhile⟩
    exact ((Scanner.rest_pass_suffix _ _).trans (Scanner.rest_pass_suffix _ _)).trans ht
  case isFalse =>
    cases h
    have hlast := lastPart_infix path
    rw [eq_of_scan_nonBlanks hpath] at hlast ⊢
    refine ⟨hlast.trans (hrun s hs), ?_⟩
    intro c hc
    exact not_isBlank_of_mem_takeWhile (hlast.subset hc)

/-- The name of an interpreter is a stretch of the line, with neither blanks nor digits
in it. -/
theorem of_ofLine? {n : String} (h : ofLine? line = some n) :
    n.toList <:+: line ∧ ∀ c ∈ n.toList, isBlank c = false ∧ c.isDigit = false := by
  obtain ⟨w, hw, rfl⟩ := Option.map_eq_some_iff.mp h
  obtain ⟨hstretch, hblank⟩ := of_word? hw
  have hcut := withoutVersion_infix w
  rw [String.toList_ofList]
  refine ⟨hcut.trans hstretch, ?_⟩
  intro c hc
  exact ⟨hblank c (hcut.subset hc), not_isDigit_of_mem_withoutVersion hc⟩

end SourceTokens.Interpreter

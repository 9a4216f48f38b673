/-
# `SourceTokens.Proofs.Wrapping` — a pattern by itself and wrapped

A pattern text is read twice, as it stands and inside `^(?:…)`, and has to be a pattern both
times.  Each reading refuses texts that the other takes.

A text such as `a)(?:b` closes the group of the wrapping and opens another for the last
bracket to close.  It is a pattern once wrapped, and is refused because it is none by itself.

The other way round, a text that is a pattern by itself leaves no group open and closes none
that it has not opened, so its pieces stand in the wrapping as the contents of one group
(`Pattern.grouped`).  That is what the wrapping relies on, and it is true but for the last
bracket: if the pattern is verbose where it ends, and ends in a comment, the bracket is taken
into the comment.  Such a pattern is refused although nothing is wrong with it, as `(?x)a#`
is (`Pattern.not_read_comment`).
-/
import SourceTokens.Proofs.Searching

namespace SourceTokens

open Regex

/-! ## Patterns that end in a comment -/

namespace Regex

variable {s : List Char} {v : Bool}

theorem mem_of_isRemark {comment : Bool} (h : isRemark comment s = true) :
    comment = true ∨ '#' ∈ s := by
  fun_induction isRemark comment s with
  | case1 => exact .inl h
  | case2 => exact .inl rfl
  | case3 c s hc ih => exact .inr (.tail c ((ih h).resolve_left Bool.false_ne_true))
  | case4 => exact .inr (.head _)
  | case5 => cases h

theorem mem_of_pieces {m : Mode} {ps : List Piece} (h : pieces m s = .ok (ps, true)) :
    '#' ∈ s := by
  fun_induction pieces m s generalizing ps with
  | case1 => cases h
  | case2 m s hs hdepth =>
    have hremark : endsInRemark m.verbose s = true := (Prod.mk.inj (Except.ok.inj h)).2
    exact (mem_of_isRemark (Bool.and_eq_true_iff.mp hremark).2).resolve_left Bool.false_ne_true
  | case3 m s c t hs ih =>
    obtain ⟨p, -, h⟩ := bind_eq_ok_iff.mp h
    obtain ⟨⟨qs, remark⟩, hq, h⟩ := bind_eq_ok_iff.mp h
    cases h
    exact (p.suffix.trans (suffix_of_skip hs)).subset (ih p hq)

end Regex

/-! ## The wrapping -/

namespace Pattern

/-- The wrapping holds the text as one group, whose expression is `r`, behind the anchor. -/
structure Grouped (data : CharacterData) (source : List Char) (r : Regex) : Prop where
  /-- The text is read in the wrapping as it is read by itself: the wrapping adds the anchor
  and two brackets to its pieces. -/
  pieces : ∃ ps, Regex.pieces .start source = .ok (ps, false) ∧ assemble data ps = .ok r ∧
    Regex.pieces .start (wrapped source)
      = .ok (.atom (.look .lineStart) :: .opening none .none :: (ps ++ [.closing]), false)
  /-- The last bracket closes the group of the wrapping, which holds `r` by then, and that is
  the only group left open before it. -/
  group : ∃ ps a, Regex.pieces .start (wrapped source) = .ok (ps ++ [.closing], false) ∧
    ps.foldlM (Assembly.take data) .empty = .ok a ∧ a.around = [.wrapping] ∧
    a.inner.close = r
  /-- The expression is the anchor followed by `r`. -/
  regex : ofPattern data (wrapped source) = .ok (.seq (.assert .textStart) r)

/-- When a text is taken for a pattern. -/
structure ReadAlone (data : CharacterData) (source : String) : Prop where
  /-- It is taken if it is a pattern by itself, and one that does not end in a comment. -/
  isOk_iff : (∃ p, read source data = .ok p) ↔
    (∃ r, ofPattern data source.toList = .ok r) ∧ ¬ EndsInComment source.toList
  /-- It is then kept with the expression that it is by itself, and the wrapping groups what it
  writes. -/
  keeps : ∀ r, ofPattern data source.toList = .ok r → ¬ EndsInComment source.toList →
    read source data = .ok ⟨source, r⟩ ∧ Grouped data source.toList r
  /-- If it ends in a comment, it is refused for the group that the wrapping opens. -/
  comment : ∀ r, ofPattern data source.toList = .ok r → EndsInComment source.toList →
    ofPattern data (wrapped source.toList) = .error .unclosedGroup ∧
      read source data = .error .unclosedGroup
  /-- A text with no number sign does not end in a comment. -/
  plain : '#' ∉ source.toList → ¬ EndsInComment source.toList
  /-- If it is a pattern only once wrapped, it is refused, for what is wrong with it by
  itself. -/
  refuses : ∀ e w, ofPattern data source.toList = .error e →
    ofPattern data (wrapped source.toList) = .ok w → read source data = .error e

variable {data : CharacterData} {source : String} {s : List Char} {r : Regex}

theorem grouped (h : ofPattern data s = .ok r) (hs : ¬ EndsInComment s) : Grouped data s r := by
  obtain ⟨⟨ps, remark⟩, hps, hr⟩ := bind_eq_ok_iff.mp h
  cases remark with
  | true => exact absurd ⟨ps, hps⟩ hs
  | false =>
    obtain ⟨a, ha, haround, hclose⟩ := exists_assembly hr
    refine ⟨⟨ps, hps, hr, pieces_wrapped hps⟩, ?_, ofPattern_wrapped h hs⟩
    refine ⟨.atom (.look .lineStart) :: .opening none .none :: ps, a.inside [.wrapping],
      pieces_wrapped hps, Assembly.foldlM_wrapping ha, ?_, hclose⟩
    show a.around ++ [.wrapping] = _
    rw [haround]
    rfl

/-- Once wrapped, a text is refused or taken as it is by itself. -/
theorem read_of_wrapped {w : Regex} (h : ofPattern data (wrapped source.toList) = .ok w) :
    read source data = (⟨source, ·⟩) <$> ofPattern data source.toList := by
  rw [read, h]
  show ofPattern data source.toList >>= _ = _
  cases ofPattern data source.toList with
  | error e => rfl
  | ok r => rfl

/-- A text is taken for a pattern if it is one by itself and does not end in a comment, and
then the wrapping holds it as one group behind the anchor.  It is refused otherwise, whatever
the wrapping makes of it. -/
theorem readAlone (data : CharacterData) (source : String) : ReadAlone data source := by
  have hkeeps : ∀ r, ofPattern data source.toList = .ok r → ¬ EndsInComment source.toList →
      read source data = .ok ⟨source, r⟩ ∧ Grouped data source.toList r := by
    intro r hr hs
    refine ⟨?_, grouped hr hs⟩
    rw [read_of_wrapped (ofPattern_wrapped hr hs), hr]
    rfl
  constructor
  case isOk_iff =>
    constructor
    · rintro ⟨p, hp⟩
      obtain ⟨-, hr, hs⟩ := of_read hp
      exact ⟨⟨p.regex, hr⟩, hs⟩
    · rintro ⟨⟨r, hr⟩, hs⟩
      exact ⟨_, (hkeeps r hr hs).1⟩
  case keeps => exact hkeeps
  case comment =>
    intro r hr hs
    have hwrapped := ofPattern_wrapped_of_comment hr hs
    refine ⟨hwrapped, ?_⟩
    rw [read, hwrapped]
    rfl
  case plain =>
    intro hmem hs
    obtain ⟨ps, hps⟩ := hs
    exact hmem (mem_of_pieces hps)
  case refuses =>
    intro e w he hw
    rw [read_of_wrapped hw, he]
    rfl

/-- The first and the last branch may be empty, and brackets need not be those of groups. -/
theorem readAlone_branches :
    ∃ r, ofPattern .none "|[^]]*?\\(|".toList = .ok r ∧
      read "|[^]]*?\\(|" = .ok ⟨"|[^]]*?\\(|", r⟩ ∧
      Grouped .none "|[^]]*?\\(|".toList r := by
  have hsome : (ofPattern .none "|[^]]*?\\(|".toList).toOption.isSome := by decide +kernel
  obtain ⟨r, hr⟩ := Option.isSome_iff_exists.mp hsome
  have hr := toOption_eq_some_iff.mp hr
  have halone := readAlone .none "|[^]]*?\\(|"
  exact ⟨r, hr, halone.keeps r hr (halone.plain (by decide))⟩

/-- A text that is a pattern only once wrapped. -/
example : (ofPattern .none (wrapped "a)(?:b".toList)).toOption.isSome ∧
    read "a)(?:b" = .error .unopenedGroup := by decide +kernel

/-- A pattern that is refused.  The line break that would end the comment makes it one that is
taken. -/
theorem not_read_comment :
    ofPattern .none "(?x)a#".toList = .ok (.char 'a') ∧ ¬ (∃ p, read "(?x)a#" = .ok p) ∧
      read "(?x)a#\n" = .ok ⟨"(?x)a#\n", .char 'a'⟩ := by
  have hread : read "(?x)a#" = .error .unclosedGroup := by decide +kernel
  refine ⟨by decide +kernel, ?_, by decide +kernel⟩
  rintro ⟨p, hp⟩
  cases hread.symm.trans hp

end Pattern

end SourceTokens

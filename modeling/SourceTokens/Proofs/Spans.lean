/-
# `SourceTokens.Proofs.Spans` — whatever stands between two angle brackets

What looks like a tag is taken for one: `IsSpan` says that the expression for tags matches
a text from one end to the other, and `isSpan_iff` what such a text looks like.  Nothing is
known of what stands inside.  Quotes may be left open, equals signs may have nothing before
them, and the name may be a slash.

Still the tokens of a span have one shape (`tokens_of_isSpan`).  The first is made of
everything from the bracket to the first blank or closing bracket.  After it there is no
opening bracket left, and so no second name of a tag can be found: what is found is a word,
possibly with an equals sign.  In a source, a span has these tokens and no others, unless
it begins a comment.
-/
import SourceTokens.Proofs.Alphabet

namespace SourceTokens

open Direct

/-- The expression for tags matches the whole text. -/
def Tag.IsSpan (span : List Char) : Prop :=
  ∃ s, (Scanner.ofText span).scan Lexicon.tagSpan = some (span, s)

namespace Tag

variable {span : List Char}

theorem isSpan_iff_span? : IsSpan span ↔ span? span = some (span, []) := by
  have hscan : (Scanner.ofText span).scan Lexicon.tagSpan
      = ((span? span).map (·.2)).map fun t =>
          ((Scanner.ofText span).before t, (Scanner.ofText span).upTo t) := by
    rw [Scanner.scan_eq rfl, Lexicon.matchRest?_tagSpan]
    rfl
  rw [IsSpan, hscan]
  constructor
  · rintro ⟨s, h⟩
    obtain ⟨t, ht, hmatch⟩ := Option.map_eq_some_iff.mp h
    obtain ⟨⟨w, u⟩, hspan, rfl⟩ := Option.map_eq_some_iff.mp ht
    obtain ⟨_, _, _, hrest, _⟩ := of_span? hspan
    have hbefore : (Scanner.ofText span).before u = w := Scanner.before_of_eq hrest
    obtain rfl : w = span := hbefore.symm.trans (congrArg Prod.fst hmatch)
    obtain rfl : u = [] := List.append_right_eq_self.mp hrest.symm
    exact hspan
  · intro hspan
    have hbefore : (Scanner.ofText span).before [] = span :=
      Scanner.before_of_eq (List.append_nil span).symm
    refine ⟨(Scanner.ofText span).upTo [], ?_⟩
    rw [hspan, Option.map_some, Option.map_some, hbefore]

/-- A span is an opening bracket, a character that is neither blank nor a bracket, others
that are no brackets, and a closing bracket. -/
theorem isSpan_iff :
    IsSpan span ↔ ∃ c m, span = '<' :: c :: (m ++ ['>']) ∧ isBlank c = false ∧
      isAngle c = false ∧ ∀ d ∈ m, isAngle d = false := by
  rw [isSpan_iff_span?]
  constructor
  · intro hspan
    obtain ⟨c, m, hchars, -, hblank, hangle, hm⟩ := of_span? hspan
    exact ⟨c, m, hchars, hblank, hangle, hm⟩
  · rintro ⟨c, m, rfl, hblank, hangle, hm⟩
    have hspan := span?_eq_some (t := []) hblank hangle hm
    rwa [List.append_nil] at hspan

end Tag

/-! ## The tokens inside -/

namespace Direct

variable {c : Char} {cs m : List Char} {token : Token}

/-- Where no bracket opens, a tag has words for tokens. -/
theorem name_of_mem_tagTokens (hcs : '<' ∉ cs) (h : token ∈ tagTokens cs) :
    TextClass.name.Contains token.text.toList := by
  obtain ⟨s, t, hs, hstep⟩ := exists_tagStep_of_mem h
  cases hstep with
  | name => exact absurd (hs.subset List.mem_cons_self) hcs
  | assignment hne hword _ => exact ⟨_, hne, hword, .inr String.toList_ofList⟩
  | identifier hne hword => exact ⟨_, hne, hword, .inl String.toList_ofList⟩

theorem not_isAngle_of_name {w : List Char} (h : TextClass.name.Contains w) :
    w.any isAngle = false := by
  have hword : ∀ c, isWord c = true → isAngle c = false := by
    intro c hc
    cases hangle : isAngle c with
    | false => rfl
    | true =>
      have heq : c = '<' ∨ c = '>' := by simpa [isAngle] using hangle
      rcases heq with rfl | rfl
      all_goals cases hc
  obtain ⟨v, -, hv, hw⟩ := h
  have hall : ∀ c ∈ v, isAngle c = false := by
    intro c hc
    exact hword c (hv c hc)
  rcases hw with rfl | rfl
  · simpa using hall
  · simpa using ⟨hall, show isAngle '=' = false from rfl⟩

/-- A span begins with a name, and the rest of it is read after that. -/
theorem tagTokens_span (hblank : isBlank c = false) (hangle : isAngle c = false) :
    tagTokens ('<' :: c :: cs)
      = .tag (.ofList ('<' :: (c :: cs).takeWhile isTagName))
        :: tagTokens ((c :: cs).dropWhile isTagName) := by
  have hclose : c ≠ '>' := by
    rintro rfl
    cases hangle
  have hname : (c :: cs).takeWhile isTagName ≠ [] :=
    head?_takeWhile_ne_nil (by simp [isTagName, hblank, hclose])
  have hstep : tagStep ('<' :: c :: cs)
      = (some (.tag (.ofList ('<' :: (c :: cs).takeWhile isTagName))),
          (c :: cs).dropWhile isTagName) := by
    rw [tagStep, List.head?_cons, List.tail_cons, if_pos ⟨rfl, hname⟩]
  rw [tagTokens_of_ne_nil (List.cons_ne_nil _ _), hstep]
  rfl

/-! ## In a source -/

/-- What begins with another character is not found at an angle bracket. -/
theorem not_prefix_cons_angle {w : List Char} (hw : w.head?.any (· ≠ '<') = true)
    (cs : List Char) : ¬ w <+: '<' :: cs := by
  rintro ⟨t, ht⟩
  cases w with
  | nil => cases hw
  | cons d w =>
    obtain rfl : d = '<' := (List.cons.inj ht).1
    cases hw

/-- Of the rules that come before that of tags, only a comment begins with an angle
bracket. -/
theorem read_cons_angle {rule : Rule} {lineStart : Bool}
    (hrule : rule ∈ [Rule.interpreterLine, .lineComment, .blockComment, .doubleQuoted,
      .singleQuoted, .number])
    (hcomment : ¬ "<!--".toList <+: '<' :: cs) : read rule lineStart ('<' :: cs) = none := by
  cases rule with
  | interpreterLine => exact interpreterLine?_eq_none (not_prefix_cons_angle (by decide) cs)
  | lineComment =>
    have hmarks : ∀ w ∈ lineMarks, w.toList.head?.any (· ≠ '<') = true := by decide
    refine if_neg ?_
    rintro ⟨-, w, hw, hfront⟩
    exact not_prefix_cons_angle (hmarks w hw) cs hfront
  | blockComment =>
    have hothers : ∀ b ∈ brackets, b.1 = "<!--" ∨ b.1.toList.head?.any (· ≠ '<') = true := by
      decide
    refine blockComment?_eq_none_iff.mpr ?_
    intro b hb
    rcases hothers b hb with hb | hb
    · rwa [hb]
    · exact not_prefix_cons_angle hb cs
  | doubleQuoted =>
    show string? '"' ('<' :: cs) = none
    exact string?_of_head?_ne (by simp)
  | singleQuoted =>
    show string? '\'' ('<' :: cs) = none
    exact string?_of_head?_ne (by simp)
  | number => exact number?_eq_none_iff.mpr rfl
  | tag | punctuation | regular | operator => exact absurd hrule (by decide)

theorem step_of_span? {w t : List Char} (hspan : span? cs = some (w, t))
    (hcomment : ¬ "<!--".toList <+: cs) (lineStart : Bool) :
    step lineStart cs = (tagTokens w, t) := by
  have hread : read .tag lineStart cs = some (tagTokens w, t) := by
    rw [read, hspan]
    rfl
  have horder : order
      = [.interpreterLine, .lineComment, .blockComment, .doubleQuoted, .singleQuoted, .number]
        ++ .tag :: [.punctuation, .regular, .operator] := rfl
  refine step_of_read horder hread ?_
  obtain ⟨c, m, rfl, rfl, -⟩ := of_span? hspan
  intro rule hrule
  exact read_cons_angle hrule hcomment

end Direct

/-- A span by itself, as a source, has the tokens that it has as a tag, unless it begins a
comment. -/
theorem Source.tokens_of_isSpan {span : List Char} (h : Tag.IsSpan span)
    (hcomment : ¬ "<!--".toList <+: span) :
    Source.tokens (.ofList span) = Tag.tokens span := by
  have hspan := Tag.isSpan_iff_span?.mp h
  have hne : span ≠ [] := by
    rintro rfl
    cases hspan
  rw [Source.tokens_eq_tokensFrom, String.toList_ofList, tokensFrom_of_ne_nil hne,
    step_of_span? hspan hcomment, tokensFrom_nil, List.append_nil, Tag.tokens_eq]

/-- After its first bracket a span has no other that opens. -/
theorem Tag.not_mem_tail_of_isSpan {span : List Char} (h : Tag.IsSpan span) :
    '<' ∉ span.tail := by
  obtain ⟨c, m, rfl, -, hangle, hm⟩ := Tag.isSpan_iff.mp h
  intro hmem
  rcases List.mem_cons.mp hmem with rfl | hmem
  · cases hangle
  rcases List.mem_append.mp hmem with hmem | hmem
  · exact absurd (hm '<' hmem) (by decide)
  · exact absurd hmem (by decide)

/-- The tokens of what looks like a tag, however malformed it is: a name, which runs from
the opening bracket to the first blank or closing bracket, and after it only words, some of
them with an equals sign.  So the first token is the only one with an angle bracket. -/
theorem Tag.tokens_span {span : List Char} (h : Tag.IsSpan span) :
    (∃ first rest, Tag.tokens span = first :: rest ∧
      first.text
        = .ofList ('<' :: (span.tail.takeWhile (fun c => !isBlank c && c != '>') ++ ['>'])) ∧
      ∀ token ∈ rest, ∃ w, w ≠ [] ∧ (∀ c ∈ w, isWord c = true) ∧
        (token.text = .ofList w ∨ token.text = .ofList (w ++ ['=']))) ∧
    (Tag.tokens span).countP (fun token => token.text.toList.any isAngle) = 1 ∧
    (¬ "<!--".toList <+: span → Source.tokens (.ofList span) = Tag.tokens span) := by
  have hopen := Tag.not_mem_tail_of_isSpan h
  obtain ⟨c, m, rfl, hblank, hangle, hm⟩ := Tag.isSpan_iff.mp h
  rw [List.tail_cons] at hopen ⊢
  have htokens : tagTokens ('<' :: c :: (m ++ ['>'])) = _ := tagTokens_span hblank hangle
  have hrest : ∀ token ∈ tagTokens ((c :: (m ++ ['>'])).dropWhile isTagName),
      TextClass.name.Contains token.text.toList := by
    intro token htoken
    refine name_of_mem_tagTokens ?_ htoken
    intro hmem
    exact hopen ((List.dropWhile_suffix _).subset hmem)
  rw [← Tag.tokens_eq] at htokens
  refine ⟨⟨_, _, htokens, ?first, ?words⟩, ?count, Source.tokens_of_isSpan h⟩
  case first =>
    exact String.ofList_append.symm
  case words =>
    intro token htoken
    obtain ⟨w, hne, hw, htext⟩ := hrest token htoken
    refine ⟨w, hne, hw, ?_⟩
    rw [← String.toList_inj, ← String.toList_inj, String.toList_ofList, String.toList_ofList]
    exact htext
  case count =>
    have hnone : (tagTokens ((c :: (m ++ ['>'])).dropWhile isTagName)).countP
        (fun token => token.text.toList.any isAngle) = 0 := by
      refine List.countP_eq_zero.mpr ?_
      intro token htoken
      rw [not_isAngle_of_name (hrest token htoken)]
      exact Bool.false_ne_true
    rw [htokens, List.countP_cons, hnone]
    simp [Token.text, isAngle]

/-- A slash is the name of the tag, and a quote that is never closed hides nothing. -/
theorem Tag.tokens_span_slash :
    Tag.IsSpan "</ a=\"b>".toList ∧
      ∃ first rest, Tag.tokens "</ a=\"b>".toList = first :: rest ∧ first.text = "</>" ∧
        Source.tokens "</ a=\"b>" = Tag.tokens "</ a=\"b>".toList := by
  have h : Tag.IsSpan "</ a=\"b>".toList :=
    Tag.isSpan_iff.mpr
      ⟨'/', [' ', 'a', '=', '"', 'b'], by decide, by decide, by decide, by simp [isAngle]⟩
  obtain ⟨⟨first, rest, htokens, hfirst, -⟩, -, hsource⟩ := Tag.tokens_span h
  refine ⟨h, first, rest, htokens, ?_, ?_⟩
  · rw [hfirst]
    decide
  · exact hsource (by decide)

end SourceTokens

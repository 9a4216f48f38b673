/-
# `SourceTokens.Proofs.Contents` — what a comment or a string holds

Of a comment or a string nothing is kept.  `Skipped rule o b c` says of a stretch of
source, what opens it, what it holds and what closes it, that `rule` passes over it as a
whole; a run that comes to such a stretch goes on after it with the text `r` that follows,

    tokens (a ++ o ++ b ++ c ++ r)
      = tokensFrom true a ++ tokensFrom (endsWithNewline c) r

and `b` is not on the right hand side.  The part before the stretch is the subject of
`SourceTokens.Proofs.Prefix`: a step within `a` may look ahead into `b`, but then it takes
what it has seen, and the run does not come to the end of `a`.
-/
import SourceTokens.Proofs.Prefix

namespace SourceTokens

open Direct

/-! ## What is passed over -/

/-- A stretch of source that the grammar passes over: the rule that does, what opens the
stretch, what it holds and what closes it. -/
inductive Skipped : Rule → List Char → List Char → List Char → Prop
  /-- A block comment, through the first occurrence of its closing bracket. -/
  | block {b : String × String} {body : List Char} (hb : b ∈ Lexicon.blockBrackets)
      (hfirst : ∀ u v, body ++ b.2.toList = u ++ b.2.toList ++ v → body.length ≤ u.length) :
      Skipped .blockComment b.1.toList body b.2.toList
  /-- A string that is not empty, through the first quote that comes after another
  character than a backslash. -/
  | quoted {rule : Rule} {quote : Char} {body : List Char}
      (hrule : (rule, quote) ∈ [(Rule.doubleQuoted, '"'), (Rule.singleQuoted, '\'')])
      (hne : body ≠ []) (hhead : body.head? ≠ some quote)
      (hlast : body.getLast? ≠ some '\\')
      (hfirst : ∀ u d v, body ++ [quote] = u ++ [d, quote] ++ v → d ≠ '\\' → v = []) :
      Skipped rule [quote] body [quote]
  /-- A comment through the end of its line, with the blanks before its mark. -/
  | line {blanks : List Char} {mark : String} {body : List Char}
      (hblanks : ∀ c ∈ blanks, isBlank c) (hmark : mark ∈ lineMarks) (hbody : '\n' ∉ body) :
      Skipped .lineComment (blanks ++ mark.toList) body ['\n']

namespace Direct

variable {b c o r w : List Char} {rule : Rule} {lineStart : Bool}

theorem after?_of_prefix (hw : w ≠ []) (h : w <+: b) : after? w b = some (b.drop w.length) := by
  cases b with
  | nil => exact absurd (List.prefix_nil.mp h) hw
  | cons d b => rw [after?, if_pos h]

theorem after?_append_of_first (hw : w ≠ [])
    (hfirst : ∀ u v, b ++ w = u ++ w ++ v → b.length ≤ u.length) (r : List Char) :
    after? w (b ++ (w ++ r)) = some r := by
  induction b with
  | nil =>
    rw [List.nil_append, after?_of_prefix hw (List.prefix_append w r), List.drop_left]
  | cons d b ih =>
    have hmiss : ¬ w <+: d :: (b ++ (w ++ r)) := by
      intro hfront
      have hwhole : d :: b ++ w <+: d :: (b ++ (w ++ r)) := by
        rw [List.cons_append, List.cons_prefix_cons, ← List.append_assoc]
        exact ⟨rfl, List.prefix_append _ r⟩
      obtain ⟨v, hv⟩ : w <+: d :: b ++ w := by
        refine List.prefix_of_prefix_length_le hfront hwhole ?_
        rw [List.length_append]
        exact Nat.le_add_left _ _
      exact absurd (hfirst [] v hv.symm) (Nat.not_succ_le_zero _)
    rw [List.cons_append, after?, if_neg hmiss]
    refine ih ?_
    intro u v h
    refine Nat.le_of_succ_le_succ (hfirst (d :: u) v ?_)
    rw [List.cons_append, h]
    rfl

theorem afterQuote?_append_of_first {quote : Char} (hne : b ≠ [])
    (hlast : b.getLast? ≠ some '\\')
    (hfirst : ∀ u d v, b ++ [quote] = u ++ [d, quote] ++ v → d ≠ '\\' → v = [])
    (r : List Char) : afterQuote? quote (b ++ ([quote] ++ r)) = some r := by
  induction b with
  | nil => exact absurd rfl hne
  | cons e b ih =>
    cases b with
    | nil =>
      have he : e ≠ '\\' := by
        rintro rfl
        exact hlast rfl
      exact if_pos ⟨he, rfl⟩
    | cons d b =>
      have hmiss : ¬ (e ≠ '\\' ∧ d = quote) := by
        rintro ⟨he, rfl⟩
        have hnil := hfirst [] e (b ++ [d]) rfl he
        exact List.append_ne_nil_of_right_ne_nil b (List.cons_ne_nil d []) hnil
      show afterQuote? quote (e :: d :: (b ++ ([quote] ++ r))) = some r
      rw [afterQuote?, if_neg hmiss]
      refine ih (List.cons_ne_nil d b) ?_ ?_
      · rwa [List.getLast?_cons_cons] at hlast
      · intro u x v h
        refine hfirst (e :: u) x v ?_
        rw [List.cons_append, h]
        rfl

/-- No bracket that opens a block comment is the beginning of another. -/
theorem eq_of_brackets_prefix {p q : String × String} (hp : p ∈ brackets) (hq : q ∈ brackets)
    {cs : List Char} (hpc : p.1.toList <+: cs) (hqc : q.1.toList <+: cs) : p = q := by
  have htable : ∀ p ∈ brackets, ∀ q ∈ brackets, p.1.toList <+: q.1.toList → p = q := by decide
  rcases List.prefix_or_prefix_of_prefix hpc hqc with h | h
  · exact htable p hp q hq h
  · exact (htable q hq p hp h).symm

theorem dropWhile_isBlank_mark {mark : String} (hmark : mark ∈ lineMarks) (cs : List Char) :
    (mark.toList ++ cs).dropWhile isBlank = mark.toList ++ cs := by
  cases h : mark.toList ++ cs with
  | nil => rfl
  | cons d ds =>
    cases hd : isBlank d with
    | true =>
      exact absurd (h ▸ List.prefix_append mark.toList cs)
        (Lexicon.not_prefix_of_isBlank hmark hd ds)
    | false => rw [List.dropWhile_cons, hd]; rfl

/-- A rule that applies to a stretch that it passes over leaves what comes after. -/
theorem read_skipped (h : Skipped rule o b c)
    (happlies : (read rule lineStart (o ++ (b ++ (c ++ r)))).isSome) :
    read rule lineStart (o ++ (b ++ (c ++ r))) = some ([], r) := by
  cases h with
  | @block p _ hp hfirst =>
    have hclosing : ∀ p ∈ brackets, p.2.toList ≠ [] := by decide
    have hfront := List.prefix_append p.1.toList (b ++ (p.2.toList ++ r))
    show blockComment? _ = _
    rw [blockComment?, findSome?_ite]
    cases hfind : brackets.find? fun q => q.1.toList <+: p.1.toList ++ (b ++ (p.2.toList ++ r)) with
    | none =>
      exact absurd (decide_eq_true hfront) (List.find?_eq_none.mp hfind p hp)
    | some q =>
      obtain ⟨hq, hqfront⟩ := of_find?_eq_some hfind
      obtain rfl := eq_of_brackets_prefix hq hp hqfront hfront
      rw [Option.map_some, List.drop_left, after?_append_of_first (hclosing q hq) hfirst]
      rfl
  | @quoted _ quote _ hrule hne hhead hlast hfirst =>
    have hstring : string? quote ([quote] ++ (b ++ ([quote] ++ r))) = some ([], r) := by
      obtain ⟨d, b, rfl⟩ := List.exists_cons_of_ne_nil hne
      have hd : d ≠ quote := by
        rintro rfl
        exact hhead rfl
      show (if quote = quote then some ([], afterString quote (d :: b ++ ([quote] ++ r))) else none)
        = _
      rw [if_pos rfl, List.cons_append, afterString, if_neg hd, ← List.cons_append,
        afterQuote?_append_of_first hne hlast hfirst]
      rfl
    simp only [List.mem_cons, Prod.mk.injEq, List.not_mem_nil, or_false] at hrule
    rcases hrule with ⟨rfl, rfl⟩ | ⟨rfl, rfl⟩
    · exact hstring
    · exact hstring
  | @line blanks mark _ hblanks hmark hbody =>
    have hmarks : ∀ w ∈ lineMarks, '\n' ∉ w.toList := by decide
    have htext : (blanks ++ mark.toList ++ (b ++ (['\n'] ++ r))).dropWhile isBlank
        = mark.toList ++ (b ++ (['\n'] ++ r)) := by
      rw [List.append_assoc, List.dropWhile_append_of_pos hblanks, dropWhile_isBlank_mark hmark]
    change (lineComment? lineStart _).isSome = true at happlies
    show lineComment? lineStart _ = _
    rw [lineComment?, htext] at happlies ⊢
    split at happlies
    case isFalse => cases happlies
    case isTrue hcomment =>
      rw [if_pos hcomment, Rule.afterLine_append (hmarks mark hmark), Rule.afterLine_append hbody]
      rfl

end Direct

theorem Skipped.closing_ne_nil {rule : Rule} {o b c : List Char} (h : Skipped rule o b c) :
    c ≠ [] := by
  have hclosing : ∀ p ∈ Lexicon.blockBrackets, p.2.toList ≠ [] := by decide
  cases h with
  | block hp _ => exact hclosing _ hp
  | quoted => exact List.cons_ne_nil _ _
  | line => exact List.cons_ne_nil _ _

/-! ## The run -/

namespace Source

/-- The run over a text comes to the end of its front `a`, and follows `rule` there. -/
def FollowsAt (text a : String) (rule : Rule) : Prop :=
  ∃ s, Visits (.ofText text.toList) s ∧ s.pos = Scanner.octets a.toList ∧ fired? s = some rule

variable {rule : Rule} {a o b c r : String}

/-- The tokens are those of what comes before the stretch and of what comes after it. -/
theorem tokens_of_skipped (h : Skipped rule o.toList b.toList c.toList)
    (hfollows : FollowsAt (a ++ o ++ b ++ c ++ r) a rule) :
    tokens (a ++ o ++ b ++ c ++ r)
      = tokensFrom true a.toList
        ++ tokensFrom (c.toList.getLast? == some '\n') r.toList := by
  obtain ⟨s, hvisits, hpos, hfired⟩ := hfollows
  have hwhole : (a ++ o ++ b ++ c ++ r).toList
      = a.toList ++ (o.toList ++ (b.toList ++ (c.toList ++ r.toList))) := by
    simp only [String.toList_append, List.append_assoc]
  obtain ⟨_, hrest⟩ := Scanner.eq_of_pos_eq ((text_of_visits hvisits).trans hwhole) hpos
  have hs : s.rest ≠ [] := by
    rw [hrest, ← List.append_assoc, ← List.append_assoc]
    exact List.append_ne_nil_of_left_ne_nil
      (List.append_ne_nil_of_right_ne_nil _ h.closing_ne_nil) _
  have hread : read rule s.atLineStart s.rest = some ([], r.toList) := by
    have htaken := read_of_taken? (fired?_eq s ▸ hfired)
    rw [hrest] at htaken ⊢
    exact read_skipped h (by rw [htaken]; rfl)
  have hstep : Direct.step s.startsLine s.rest = ([], r.toList) := by
    have hsettled := settled_of_visits hvisits (Scanner.settled_ofText _)
    rw [← step_startsLine hsettled]
    exact Option.some.inj ((read_of_taken? (fired?_eq s ▸ hfired)).symm.trans hread)
  have hline : endsLine s.rest r.toList = (c.toList.getLast? == some '\n') := by
    rw [hrest, ← List.append_assoc]
    exact endsLine_append_of_ne_nil h.closing_ne_nil _ _
  have hrun := tokensFrom_of_visits (x := a.toList) hvisits (Scanner.settled_ofText _)
    (hrest ▸ hwhole) hs
  rw [tokens_eq_tokensFrom]
  refine hrun.trans (congrArg (tokensFrom true a.toList ++ ·) ?_)
  rw [tokensFrom_of_ne_nil hs, hstep, hline]
  rfl

/-- What a comment or a string holds makes no difference to the tokens. -/
theorem tokens_skipped_congr {b₁ b₂ : String}
    (h₁ : Skipped rule o.toList b₁.toList c.toList)
    (h₂ : Skipped rule o.toList b₂.toList c.toList)
    (hfollows₁ : FollowsAt (a ++ o ++ b₁ ++ c ++ r) a rule)
    (hfollows₂ : FollowsAt (a ++ o ++ b₂ ++ c ++ r) a rule) :
    tokens (a ++ o ++ b₁ ++ c ++ r) = tokens (a ++ o ++ b₂ ++ c ++ r) := by
  rw [tokens_of_skipped h₁ hfollows₁, tokens_of_skipped h₂ hfollows₂]

/-- A comment that holds what would begin a tag, and one that holds nothing. -/
theorem tokens_skipped_congr_tag :
    tokens ("x " ++ "/*" ++ "<" ++ "*/" ++ "y>") = tokens ("x " ++ "/*" ++ "" ++ "*/" ++ "y>") := by
  have hnothing : Skipped .blockComment "/*".toList "".toList "*/".toList :=
    .block (b := ("/*", "*/")) (by decide) fun _ _ _ => Nat.zero_le _
  have htag : Skipped .blockComment "/*".toList "<".toList "*/".toList := by
    refine .block (b := ("/*", "*/")) (by decide) ?_
    intro u v h
    cases u with
    | nil => cases h
    | cons d u => exact Nat.succ_le_succ (Nat.zero_le _)
  have hword : ∀ b ∈ ["<", ""],
      (step (.ofText ("x " ++ "/*" ++ b ++ "*/" ++ "y>").toList)).2
        = ⟨['x'], (" /*" ++ b ++ "*/y>").toList⟩ := by
    simp only [step_eq]
    decide
  have hblank : ∀ b ∈ ["<", ""],
      (step ⟨['x'], (" /*" ++ b ++ "*/y>").toList⟩).2
        = ⟨[' ', 'x'], ("/*" ++ b ++ "*/y>").toList⟩ := by
    simp only [step_eq]
    decide
  have hfired : ∀ b ∈ ["<", ""],
      fired? ⟨[' ', 'x'], ("/*" ++ b ++ "*/y>").toList⟩ = some .blockComment := by
    simp only [fired?_eq]
    decide
  have hne : ∀ b ∈ ["<", ""],
      (Scanner.ofText ("x " ++ "/*" ++ b ++ "*/" ++ "y>").toList).rest ≠ [] ∧
        (" /*" ++ b ++ "*/y>").toList ≠ [] := by
    decide
  have hfollows : ∀ b ∈ ["<", ""],
      FollowsAt ("x " ++ "/*" ++ b ++ "*/" ++ "y>") "x " .blockComment := by
    intro b hb
    exact ⟨_, .of_step (hne b hb).1 (hword b hb) (.of_step (hne b hb).2 (hblank b hb) (.here _)),
      rfl, hfired b hb⟩
  exact tokens_skipped_congr htag hnothing (hfollows _ (by decide)) (hfollows _ (by decide))

end Source

end SourceTokens

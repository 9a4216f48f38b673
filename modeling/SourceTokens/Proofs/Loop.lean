/-
# `SourceTokens.Proofs.Loop` — from one end of a source to the other

The main loop is followed from its first cursor to its last.  `Source.Visits s t` says
that the loop started at `s` comes to stand at `t`, and `Settled` is what holds of all
the cursors in between: at the one place where the program and the grammar disagree
about the start of a line, after a newline that is the first character of the text,
neither finds a comment that begins there.

From the agreement of single steps it follows that the whole run reads the tokens of
the grammar, and that a token is found by a step that the run takes.
-/
import SourceTokens.Proofs.Agreement

namespace SourceTokens

open Direct

/-! ## Starts of lines -/

namespace Scanner

variable {s : Scanner} {t : List Char}

/-- Whether the cursor stands before the first character or after a newline. -/
def startsLine (s : Scanner) : Bool := s.passed.head?.all (· == '\n')

theorem before_ne_nil (hs : s.rest ≠ []) (ht : t <:+ s.rest.tail) : s.before t ≠ [] := by
  intro hnil
  have happend := before_append (ht.trans (List.tail_suffix _))
  rw [hnil, List.nil_append] at happend
  exact Nat.ne_of_lt (length_lt_of_suffix_tail hs ht) (congrArg List.length happend)

theorem startsLine_upTo (h : s.before t ≠ []) : (s.upTo t).startsLine = endsLine s.rest t := by
  show ((s.before t).reverse ++ s.passed).head?.all (· == '\n')
    = ((s.before t).getLast? == some '\n')
  rw [List.head?_append, List.head?_reverse, List.getLast?_eq_some_getLast h]
  rfl

/-- After a newline that is the first character of the text, no comment begins that
goes to the end of its line. -/
def Settled (s : Scanner) : Prop := s.passed = ['\n'] → lineComment? true s.rest = none

theorem settled_ofText (text : List Char) : (ofText text).Settled := nofun

/-- The program's start of a line is one, but for the newline that is the first
character of the text. -/
theorem atLineStart_eq (h : s.passed ≠ ['\n']) : s.atLineStart = s.startsLine := by
  obtain ⟨passed, rest⟩ := s
  match passed, h with
  | [], _ => rfl
  | [c], h => exact (beq_false_of_ne fun hc => h (congrArg ([·]) hc)).symm
  | c :: _ :: _, _ => rfl

end Scanner

namespace Direct

variable {lineStart : Bool} {c : Char} {cs u : List Char} {ts : List Token}

/-- A comment to the end of the line that blanks precede is found from the first of
them on. -/
theorem lineComment?_cons (hc : isBlank c = true) (lineStart : Bool) (cs : List Char) :
    lineComment? lineStart (c :: cs) = lineComment? lineStart cs := by
  rw [lineComment?, lineComment?, List.dropWhile_cons_of_pos hc]

theorem length_lt_of_lineComment? (h : lineComment? lineStart cs = some (ts, u)) :
    u.length < cs.length := by
  obtain ⟨⟨_, w, hw, hfront⟩, h⟩ := Option.ite_none_right_eq_some.mp h
  cases h
  exact Nat.lt_of_lt_of_le (length_afterLine_lt hw hfront)
    (List.dropWhile_suffix _).length_le

/-- Where a comment to the end of the line begins, nothing comes before it. -/
theorem step_of_lineComment? (h : lineComment? lineStart cs = some (ts, u)) :
    step lineStart cs = (ts, u) := by
  have hmarks : ∀ w ∈ lineMarks, ¬ "#!".toList <+: w.toList ∧ ¬ w.toList <+: "#!".toList := by
    decide
  have hinterpreter : interpreterLine? cs = none := by
    refine interpreterLine?_eq_none ?_
    rintro ⟨t, rfl⟩
    obtain ⟨⟨_, w, hw, hfront⟩, _⟩ := Option.ite_none_right_eq_some.mp h
    -- the text begins with `#`, so the mark would be there too
    have hmark : w.toList <+: "#!".toList ++ t := hfront
    rcases List.prefix_or_prefix_of_prefix (List.prefix_append _ t) hmark with h | h
    · exact (hmarks w hw).1 h
    · exact (hmarks w hw).2 h
  refine step_of_read (show order = [.interpreterLine] ++ .lineComment :: _ from rfl) h ?_
  intro r hr
  rw [List.mem_singleton.mp hr]
  exact hinterpreter

/-- Only a comment to the end of the line asks whether a line starts. -/
theorem read_congr {rule : Rule} (hrule : rule ≠ .lineComment) (lineStart lineStart' : Bool)
    (cs : List Char) : read rule lineStart cs = read rule lineStart' cs := by
  cases rule
  case lineComment => exact absurd rfl hrule
  all_goals rfl

theorem step_of_lineComment?_eq_none (h : lineComment? true cs = none) (lineStart : Bool) :
    step lineStart cs = step true cs := by
  have hread : (read · lineStart cs) = (read · true cs) := by
    funext rule
    by_cases hrule : rule = .lineComment
    · subst hrule
      cases lineStart with
      | true => rfl
      | false => exact h.symm
    · exact read_congr hrule lineStart true cs
  rw [step, step, hread]

end Direct

namespace Source

variable {s : Scanner}

/-- The start of a line makes no difference where the program and the grammar disagree
about it. -/
theorem step_startsLine (hsettled : s.Settled) :
    Direct.step s.atLineStart s.rest = Direct.step s.startsLine s.rest := by
  by_cases hs : s.passed = ['\n']
  · have hnone := hsettled hs
    rw [step_of_lineComment?_eq_none hnone, step_of_lineComment?_eq_none hnone s.startsLine]
  · rw [Scanner.atLineStart_eq hs]

theorem step_eq_upTo (hsettled : s.Settled) :
    step s = ((Direct.step s.startsLine s.rest).1,
      s.upTo (Direct.step s.startsLine s.rest).2) := by
  rw [step_eq, step_startsLine hsettled]

theorem settled_step (hsettled : s.Settled) (hs : s.rest ≠ []) : (step s).2.Settled := by
  rw [step_eq_upTo hsettled]
  generalize hu : (Direct.step s.startsLine s.rest).2 = u
  have hsuffix : u <:+ s.rest.tail := hu ▸ step_suffix _ _
  have happend := Scanner.before_append (hsuffix.trans (List.tail_suffix _))
  intro hpassed
  -- the step has read that newline and nothing else
  obtain ⟨hbefore, hstart⟩ : s.before u = ['\n'] ∧ s.passed = [] := by
    rcases List.append_eq_singleton_iff.mp hpassed with ⟨hnil, _⟩ | ⟨hone, hnil⟩
    · exact absurd (List.reverse_eq_nil_iff.mp hnil) (Scanner.before_ne_nil hs hsuffix)
    · exact ⟨List.reverse_inj.mp hone, hnil⟩
  rw [hbefore, List.singleton_append] at happend
  have hline : s.startsLine = true := by rw [Scanner.startsLine, hstart]; rfl
  rw [hline, ← happend] at hu
  cases hcomment : lineComment? true u with
  | none => exact hcomment
  | some a =>
    have hnewline : isBlank '\n' = true := rfl
    rw [step_of_lineComment? ((lineComment?_cons hnewline true u).trans hcomment)] at hu
    exact absurd (congrArg List.length hu) (Nat.ne_of_lt (length_lt_of_lineComment? hcomment))

/-! ## The run -/

/-- The loop adds to the tokens already found those that the grammar reads off the text
ahead. -/
theorem toList_collect (hsettled : s.Settled) (found : Array Token) :
    (collect s found).toList = found.toList ++ tokensFrom s.startsLine s.rest := by
  fun_induction collect s found with
  | case1 s found hs => rw [hs, tokensFrom_nil, List.append_nil]
  | case2 s found hs _ ih =>
    have hsuffix := step_suffix s.startsLine s.rest
    rw [ih (settled_step hsettled hs), step_eq_upTo hsettled, Scanner.rest_upTo,
      Scanner.startsLine_upTo (Scanner.before_ne_nil hs hsuffix), Array.toList_appendList,
      tokensFrom_of_ne_nil hs]
    exact List.append_assoc _ _ _

theorem tokens_eq_tokensFrom (text : String) :
    tokens text = tokensFrom true text.toList := by
  rw [tokens, toList_collect (Scanner.settled_ofText _)]
  rfl

/-- The program reads the tokens of the grammar off every text. -/
theorem tokens_eq_direct (text : String) : tokens text = Direct.tokens text :=
  tokens_eq_tokensFrom text

/-- The loop started at `s` comes to stand at `t`, be it at the end. -/
inductive Visits : Scanner → Scanner → Prop
  | here (s : Scanner) : Visits s s
  | later {s t : Scanner} (hs : s.rest ≠ []) (h : Visits (step s).2 t) : Visits s t

theorem Visits.of_step {s t u : Scanner} (hs : s.rest ≠ []) (hstep : (step s).2 = u)
    (h : Visits u t) : Visits s t := .later hs (hstep ▸ h)

theorem settled_of_visits {s t : Scanner} (h : Visits s t) (hs : s.Settled) : t.Settled := by
  induction h with
  | here => exact hs
  | later hne _ ih => exact ih (settled_step hs hne)

theorem rest_step (s : Scanner) : (step s).2.rest <:+ s.rest.tail := by
  rw [step_eq]
  exact step_suffix _ _

theorem rest_of_visits {s t : Scanner} (h : Visits s t) : t.rest <:+ s.rest := by
  induction h with
  | here => exact List.suffix_rfl
  | later _ _ ih => exact (ih.trans (rest_step _)).trans (List.tail_suffix _)

theorem text_step (s : Scanner) : (step s).2.text = s.text := by
  rw [step_eq]
  exact Scanner.text_upTo ((step_suffix _ _).trans (List.tail_suffix _))

theorem text_of_visits {s t : Scanner} (h : Visits s t) : t.text = s.text := by
  induction h with
  | here => rfl
  | later _ _ ih => rw [ih, text_step]

/-- A token is found by a step that the loop takes, and by no other way. -/
theorem mem_collect_iff (found : Array Token) (token : Token) :
    token ∈ (collect s found).toList
      ↔ token ∈ found.toList ∨ ∃ t, Visits s t ∧ t.rest ≠ [] ∧ token ∈ (step t).1 := by
  fun_induction collect s found with
  | case1 s found hs =>
    constructor
    · exact .inl
    · rintro (h | ⟨t, hvisits, ht, _⟩)
      · exact h
      · cases hvisits with
        | here => exact absurd hs ht
        | later hne => exact absurd hs hne
  | case2 s found hs _ ih =>
    rw [ih, Array.toList_appendList, List.mem_append]
    constructor
    · rintro ((h | h) | ⟨t, hvisits, ht, h⟩)
      · exact .inl h
      · exact .inr ⟨s, .here s, hs, h⟩
      · exact .inr ⟨t, .later hs hvisits, ht, h⟩
    · rintro (h | ⟨t, hvisits, ht, h⟩)
      · exact .inl (.inl h)
      · cases hvisits with
        | here => exact .inl (.inr h)
        | later _ hvisits => exact .inr ⟨t, hvisits, ht, h⟩

/-- `Emits text rule token`: the run over `text` comes to a cursor at which it follows
`rule`, and finds `token` there. -/
def Emits (text : String) (rule : Rule) (token : Token) : Prop :=
  ∃ s, Visits (.ofText text.toList) s ∧ s.rest ≠ [] ∧ fired? s = some rule ∧
    token ∈ (step s).1

theorem step_of_fired?_eq_none (h : fired? s = none) : (step s).1 = [] := by
  rw [fired?_eq] at h
  rw [step_eq, step_of_taken?_eq_none h]

/-- The tokens of a text are those that some rule finds. -/
theorem mem_tokens_iff (text : String) (token : Token) :
    token ∈ tokens text ↔ ∃ rule, Emits text rule token := by
  rw [tokens, mem_collect_iff]
  constructor
  · rintro (h | ⟨s, hvisits, hs, htoken⟩)
    · cases h
    · cases hfired : fired? s with
      | none => rw [step_of_fired?_eq_none hfired] at htoken; cases htoken
      | some rule => exact ⟨rule, s, hvisits, hs, hfired, htoken⟩
  · rintro ⟨_, s, hvisits, hs, _, htoken⟩
    exact .inr ⟨s, hvisits, hs, htoken⟩

end Source

end SourceTokens

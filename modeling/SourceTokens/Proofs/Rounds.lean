/-
# `SourceTokens.Proofs.Rounds` — every round goes on, and the loops end

Neither of the two loops counts its rounds.  They end because every round passes a
character: no expression that a rule begins with matches the empty text, a search that
finds nothing leaves the cursor behind what has been read already, or sends it to the end,
and where nothing applies a character is dropped.  `Rounds body n w u` is the meaning of
such a loop, and `exists_rounds` the one argument that ends both.

A rule that refuses has to leave everything as it is, or the rule after it would not start
where the round did.  That it does is read off `Rule.attempt_eq`.
-/
import SourceTokens.Proofs.InPlace

namespace SourceTokens

/-- The loop that repeats `body` until the cursor is at the end, started with `w`, ends
with `u` after `n` rounds. -/
inductive Rounds (body : Work → Work) : Nat → Work → Work → Prop
  | done {w : Work} (h : w.cursor.atEnd = true) : Rounds body 0 w w
  | more {n : Nat} {w u : Work} (h : w.cursor.atEnd = false) (hu : Rounds body n (body w) u) :
      Rounds body (n + 1) w u

/-- The cursor has passed some of the text, and the tokens found before are still the
first. -/
structure Work.Advances (w u : Work) : Prop where
  passed : ∃ cs, cs ≠ [] ∧ w.cursor.Moves cs u.cursor
  pos_lt : w.cursor.pos < u.cursor.pos
  found : w.found.toList <+: u.found.toList

namespace Work.Advances

variable {w u : Work}

/-- A cursor that is moved to a shorter rest of its text has passed something. -/
theorem of_upTo {t : List Char} (hcursor : u.cursor = w.cursor.upTo t)
    (ht : t <:+ w.cursor.rest) (hlt : t.length < w.cursor.rest.length)
    (hfound : w.found.toList <+: u.found.toList) : w.Advances u := by
  have happend : w.cursor.before t ++ t = w.cursor.rest := Scanner.before_append ht
  have hne : w.cursor.before t ≠ [] := by
    intro hnil
    rw [hnil, List.nil_append] at happend
    exact Nat.ne_of_lt hlt (congrArg List.length happend)
  have hmoves : w.cursor.Moves (w.cursor.before t) u.cursor := by
    rw [hcursor]
    exact ⟨rfl, happend.symm⟩
  have hpos : 0 < Scanner.octets (w.cursor.before t) :=
    Nat.pos_of_ne_zero fun hzero => hne (Scanner.eq_nil_of_octets_eq_zero hzero)
  refine ⟨⟨_, hne, hmoves⟩, ?_, hfound⟩
  rw [Scanner.pos, Scanner.pos, hmoves.passed, Scanner.octets_append, Scanner.octets_reverse]
  omega

theorem length_rest_lt (h : w.Advances u) : u.cursor.rest.length < w.cursor.rest.length := by
  obtain ⟨cs, hne, hmoves⟩ := h.passed
  have hpos := List.length_pos_iff.mpr hne
  rw [hmoves.rest, List.length_append]
  omega

theorem text_eq (h : w.Advances u) : u.cursor.text = w.cursor.text := by
  obtain ⟨cs, -, hmoves⟩ := h.passed
  exact hmoves.text_eq

end Work.Advances

/-! ## Loops whose rounds go on -/

namespace Rounds

variable {body : Work → Work} {n : Nat} {w u : Work}

theorem atEnd (h : Rounds body n w u) : u.cursor.atEnd = true := by
  induction h with
  | done hend => exact hend
  | more _ _ ih => exact ih

/-- What every round keeps, the loop keeps. -/
theorem keeps {α : Type} {f : Work → α}
    (hf : ∀ w : Work, w.cursor.atEnd = false → f (body w) = f w) (h : Rounds body n w u) :
    f u = f w := by
  induction h with
  | done => rfl
  | more hend _ ih => exact ih.trans (hf _ hend)

/-- A function that goes round by round finds what the loop finds. -/
theorem found_eq {collect : Scanner → Array Token → Array Token}
    (hdone : ∀ s found, s.atEnd = true → collect s found = found)
    (hmore : ∀ w : Work, w.cursor.atEnd = false →
      collect (body w).cursor (body w).found = collect w.cursor w.found)
    (h : Rounds body n w u) : u.found = collect w.cursor w.found := by
  have hsame : collect u.cursor u.found = collect w.cursor w.found :=
    h.keeps (f := fun w => collect w.cursor w.found) hmore
  rw [← hsame, hdone _ _ h.atEnd]

end Rounds

theorem Scanner.terminate_of_text_eq {s t : Scanner} (h : t.text = s.text) :
    t.terminate = s.terminate := by
  have hreverse : t.rest.reverse ++ t.passed = s.rest.reverse ++ s.passed := by
    simpa [text] using congrArg List.reverse h
  rw [terminate, terminate, hreverse]

theorem Scanner.terminate_of_atEnd {s : Scanner} (h : s.atEnd = true) : s.terminate = s := by
  obtain ⟨passed, rest⟩ := s
  obtain rfl : rest = [] := List.isEmpty_iff.mp h
  rfl

section

variable {body : Work → Work}
  (hbody : ∀ w : Work, w.cursor.atEnd = false → w.Advances (body w))

include hbody

/-- There are at most as many rounds as there are characters ahead. -/
theorem exists_rounds (w : Work) :
    ∃ n u, Rounds body n w u ∧ n ≤ w.cursor.rest.length := by
  induction hlength : w.cursor.rest.length using Nat.strong_induction_on generalizing w with
  | _ k ih =>
    cases hend : w.cursor.atEnd with
    | true => exact ⟨0, w, .done hend, Nat.zero_le _⟩
    | false =>
      have hlt : (body w).cursor.rest.length < k := hlength ▸ (hbody w hend).length_rest_lt
      obtain ⟨n, u, hrounds, hn⟩ := ih _ hlt (body w) rfl
      exact ⟨n + 1, u, .more hend hrounds, Nat.succ_le_of_lt (Nat.lt_of_le_of_lt hn hlt)⟩

/-- A loop ends where its text ends. -/
theorem Rounds.cursor_eq {n : Nat} {w u : Work} (h : Rounds body n w u) :
    u.cursor = w.cursor.terminate := by
  have hsame : u.cursor.terminate = w.cursor.terminate := by
    refine h.keeps (f := fun w => w.cursor.terminate) ?_
    intro w hend
    exact Scanner.terminate_of_text_eq (hbody w hend).text_eq
  rw [← hsame, Scanner.terminate_of_atEnd h.atEnd]

end

/-! ## The rounds of the two loops -/

theorem Rule.advances_of_apply {rule : Rule} {w : Work} {ts : List Token} {s : Scanner}
    (h : rule.apply w.cursor = some (ts, s)) : w.Advances ⟨s, w.found ++ ts⟩ := by
  have hlt := length_rest_lt_of_apply h
  rw [apply_eq] at h
  obtain ⟨⟨us, t⟩, hread, heq⟩ := Option.map_eq_some_iff.mp h
  cases heq
  have hsuffix : t <:+ w.cursor.rest := (Direct.read_suffix hread).trans (List.tail_suffix _)
  exact .of_upTo rfl hsuffix hlt (by rw [Array.toList_appendList]; exact List.prefix_append _ _)

theorem Tag.advances_round {w : Work} (h : w.cursor.atEnd = false) :
    w.Advances (round w).2 := by
  have hrest : w.cursor.rest ≠ [] := List.isEmpty_eq_false_iff.mp h
  have hsuffix := Direct.tagStep_suffix w.cursor.rest
  rw [round_eq, step_eq]
  refine .of_upTo rfl (hsuffix.trans (List.tail_suffix _))
    (length_lt_of_suffix_tail hrest hsuffix) ?_
  show w.found.toList <+: ((Direct.tagStep w.cursor.rest).1.elim w.found w.found.push).toList
  cases (Direct.tagStep w.cursor.rest).1 with
  | none => exact List.prefix_rfl
  | some token =>
    show w.found.toList <+: (w.found.push token).toList
    rw [Array.toList_push]
    exact List.prefix_append _ _

theorem Source.advances_round {w : Work} (h : w.cursor.atEnd = false) :
    w.Advances (round w).2 := by
  have hrest : w.cursor.rest ≠ [] := List.isEmpty_eq_false_iff.mp h
  have hsuffix := Direct.step_suffix w.cursor.atLineStart w.cursor.rest
  rw [round_eq, step_eq]
  refine .of_upTo rfl (hsuffix.trans (List.tail_suffix _))
    (length_lt_of_suffix_tail hrest hsuffix) ?_
  rw [Array.toList_appendList]
  exact List.prefix_append _ _

theorem Tag.found_of_rounds {n : Nat} {w u : Work} (h : Rounds (fun w => (round w).2) n w u) :
    u.found = collect w.cursor w.found := by
  refine h.found_eq ?done ?more
  case done =>
    intro s found hend
    rw [collect, dif_pos (List.isEmpty_iff.mp hend)]
  case more =>
    intro w hend
    rw [round_eq, collect.eq_def w.cursor, dif_neg (List.isEmpty_eq_false_iff.mp hend)]

theorem Source.found_of_rounds {n : Nat} {w u : Work}
    (h : Rounds (fun w => (round w).2) n w u) : u.found = collect w.cursor w.found := by
  refine h.found_eq ?done ?more
  case done =>
    intro s found hend
    rw [collect, dif_pos (List.isEmpty_iff.mp hend)]
  case more =>
    intro w hend
    rw [round_eq, collect.eq_def w.cursor, dif_neg (List.isEmpty_eq_false_iff.mp hend)]

/-- Wherever the cursor stands and whatever has been found, to try a rule is to do what the
rule says: one that refuses leaves both as they are, and one that applies moves the cursor
on and only adds tokens.  A round inside a tag moves the cursor on, be the text a tag or
not.  So both loops end, after no more rounds than the text has characters, with the cursor
at its end, and what they have found then are the tokens. -/
theorem Source.rounds_end :
    (∀ (rule : Rule) (w : Work), rule.attempt w = Action.answer w (rule.apply w.cursor) ∧
      if (rule.attempt w).1 then w.Advances (rule.attempt w).2
      else (rule.attempt w).2 = w) ∧
    (∀ w : Work, w.cursor.atEnd = false → w.Advances (Tag.round w).2) ∧
    (∀ text : String, ∃ n u, Rounds (fun w => (round w).2) n (.ofText text.toList) u ∧
      n ≤ text.length ∧ u.cursor = (Scanner.ofText text.toList).terminate ∧
      u.found.toList = tokens text) ∧
    ∀ span : List Char, ∃ n u, Rounds (fun w => (Tag.round w).2) n (.ofText span) u ∧
      n ≤ span.length ∧ u.cursor = (Scanner.ofText span).terminate ∧
      u.found.toList = Tag.tokens span := by
  refine ⟨?rules, fun w => Tag.advances_round, ?source, ?tag⟩
  case rules =>
    intro rule w
    refine ⟨rule.attempt_eq w, ?_⟩
    rw [Rule.attempt_eq]
    cases h : rule.apply w.cursor with
    | none => rfl
    | some a => exact Rule.advances_of_apply h
  case source =>
    intro text
    obtain ⟨n, u, hrounds, hn⟩ :=
      exists_rounds (fun w => advances_round) (Work.ofText text.toList)
    refine ⟨n, u, hrounds, hn, hrounds.cursor_eq fun w => advances_round, ?_⟩
    rw [found_of_rounds hrounds]
    rfl
  case tag =>
    intro span
    obtain ⟨n, u, hrounds, hn⟩ := exists_rounds (fun w => Tag.advances_round) (Work.ofText span)
    refine ⟨n, u, hrounds, hn, hrounds.cursor_eq fun w => Tag.advances_round, ?_⟩
    rw [Tag.found_of_rounds hrounds]
    rfl

end SourceTokens

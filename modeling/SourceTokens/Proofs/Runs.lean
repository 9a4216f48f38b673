/-
# `SourceTokens.Proofs.Runs` — runs of characters at the front of a text

What is read off the front of a text is mostly a run, the longest stretch all of whose
characters pass a test: `cs.takeWhile p`, with `cs.dropWhile p` left to read.  A run that is
not empty leaves less than there was, and a run that stops within a text stops there
whatever comes after.
-/
import Mathlib.Data.List.TakeWhile

namespace SourceTokens

variable {x t : List Char}

/-! ## What is left is shorter -/

theorem tail_suffix_tail {cs t : List Char} (h : t <:+ cs) : t.tail <:+ cs.tail := by
  obtain ⟨w, rfl⟩ := h
  cases w with
  | nil => exact List.suffix_rfl
  | cons c w => exact (List.tail_suffix t).trans (List.suffix_append w t)

/-- A run that is not empty begins with the first character. -/
theorem dropWhile_suffix_tail {p : Char → Bool} {cs : List Char}
    (h : cs.takeWhile p ≠ []) : cs.dropWhile p <:+ cs.tail := by
  cases cs with
  | nil => exact absurd rfl h
  | cons c cs =>
    rw [List.takeWhile_cons] at h
    rw [List.dropWhile_cons]
    split at h
    case isTrue hc => rw [if_pos hc]; exact List.dropWhile_suffix p
    case isFalse => exact absurd rfl h

theorem drop_suffix_tail {n : Nat} (hn : 0 < n) (cs : List Char) :
    cs.drop n <:+ cs.tail := by
  obtain ⟨n, rfl⟩ := Nat.exists_eq_succ_of_ne_zero (Nat.ne_of_gt hn)
  rw [← List.drop_one, Nat.succ_eq_one_add, ← List.drop_drop]
  exact List.drop_suffix n _

theorem length_lt_of_suffix_tail {cs t : List Char} (h : cs ≠ []) (ht : t <:+ cs.tail) :
    t.length < cs.length := by
  have hle := ht.length_le
  have := List.length_pos_iff.mpr h
  rw [List.length_tail] at hle
  omega

/-! ## The first character -/

theorem head?_append_of_ne_nil {w : List Char} (hw : w ≠ []) (t : List Char) :
    (w ++ t).head? = w.head? := by
  cases w with
  | nil => exact absurd rfl hw
  | cons c w => rfl

theorem head?_takeWhile_ne_nil {p : Char → Bool} {cs : List Char}
    (h : cs.head?.any p = true) : cs.takeWhile p ≠ [] := by
  cases cs with
  | nil => cases h
  | cons c cs =>
    have hc : p c = true := h
    rw [List.takeWhile_cons_of_pos hc]
    exact List.cons_ne_nil c _

theorem of_mem_takeWhile {p : Char → Bool} {cs : List Char} {c : Char}
    (h : c ∈ cs.takeWhile p) : p c = true :=
  List.all_eq_true.mp List.all_takeWhile c h

/-- What a run stops at is not of its kind. -/
theorem of_dropWhile_eq_cons {p : Char → Bool} {cs t : List Char} {c : Char}
    (h : cs.dropWhile p = c :: t) : p c = false := by
  have hstop := List.head?_dropWhile_not p cs
  rw [h] at hstop
  exact hstop

/-- Where a run stops, a run of the other kind begins, unless the text has ended. -/
theorem takeWhile_dropWhile_eq_nil_iff {p q : Char → Bool} (h : ∀ c, p c = false → q c = true)
    (cs : List Char) : (cs.dropWhile p).takeWhile q = [] ↔ cs.dropWhile p = [] := by
  cases hrest : cs.dropWhile p with
  | nil => exact Iff.rfl
  | cons c t =>
    rw [List.takeWhile_cons_of_pos (h c (of_dropWhile_eq_cons hrest))]
    exact iff_of_false (List.cons_ne_nil c _) (List.cons_ne_nil c t)

/-! ## Runs in a longer text -/

theorem takeWhile_prefix_append (p : Char → Bool) (x t : List Char) :
    x.takeWhile p <+: (x ++ t).takeWhile p := by
  rw [List.takeWhile_append]
  split
  · exact (List.takeWhile_prefix p).trans (List.prefix_append x _)
  · exact List.prefix_rfl

/-- A run that stops within the front does so whatever comes after. -/
theorem run_append_of_ne_nil {p : Char → Bool} (hx : x.dropWhile p ≠ []) (t : List Char) :
    (x ++ t).takeWhile p = x.takeWhile p ∧ (x ++ t).dropWhile p = x.dropWhile p ++ t := by
  have hstop : (x.takeWhile p).length ≠ x.length := by
    intro hlength
    have happend := congrArg List.length (List.takeWhile_append_dropWhile (p := p) (l := x))
    rw [List.length_append] at happend
    exact hx (List.eq_nil_of_length_eq_zero (by omega))
  rw [List.takeWhile_append, if_neg hstop, List.dropWhile_append, if_neg]
  · exact ⟨rfl, rfl⟩
  · rw [List.isEmpty_iff]
    exact hx

/-- A run either stops within the front, or it takes some of what comes after. -/
theorem run_append (p : Char → Bool) (x t : List Char) :
    ((x ++ t).takeWhile p = x.takeWhile p ∧ (x ++ t).dropWhile p = x.dropWhile p ++ t)
      ∨ ((x ++ t).dropWhile p).length < t.length := by
  by_cases hx : x.dropWhile p = []
  · have hpos := List.dropWhile_eq_nil_iff.mp hx
    rw [List.takeWhile_append_of_pos hpos, List.dropWhile_append_of_pos hpos, hx,
      List.takeWhile_eq_self_iff.mpr hpos]
    by_cases ht : t.takeWhile p = []
    · left
      have hstay := List.takeWhile_append_dropWhile (p := p) (l := t)
      rw [ht, List.nil_append] at hstay
      rw [ht, hstay]
      exact ⟨List.append_nil x, rfl⟩
    · right
      refine length_lt_of_suffix_tail ?_ (dropWhile_suffix_tail ht)
      rintro rfl
      exact ht rfl
  · exact .inl (run_append_of_ne_nil hx t)

/-! ## What a character ends -/

/-- A run ends before a character that is not of its kind. -/
theorem run_append_cons {p : Char → Bool} {c : Char} (hc : p c = false) (x r : List Char) :
    (x ++ c :: r).takeWhile p = x.takeWhile p
      ∧ (x ++ c :: r).dropWhile p = x.dropWhile p ++ c :: r := by
  have hne : ¬ p c = true := by rw [hc]; exact Bool.false_ne_true
  rcases run_append p x (c :: r) with h | hlt
  · exact h
  · exfalso
    have hsuffix : c :: r <:+ (x ++ c :: r).dropWhile p := by
      rw [List.dropWhile_append]
      split
      · exact (List.dropWhile_cons_of_neg hne).symm ▸ List.suffix_rfl
      · exact List.suffix_append _ _
    exact Nat.not_lt_of_le hsuffix.length_le hlt

/-- A run of characters that are all of a kind ends with the text, or before one that is
not. -/
theorem run_maximal {p : Char → Bool} {w : List Char} (hw : ∀ c ∈ w, p c = true)
    (ht : ∀ c ∈ t.head?, p c = false) :
    (w ++ t).takeWhile p = w ∧ (w ++ t).dropWhile p = t := by
  rw [List.takeWhile_append_of_pos hw, List.dropWhile_append_of_pos hw]
  cases t with
  | nil => exact ⟨List.append_nil w, rfl⟩
  | cons c t =>
    have hc : ¬ p c = true := Bool.eq_false_iff.mp (ht c rfl)
    rw [List.takeWhile_cons_of_neg hc, List.dropWhile_cons_of_neg hc]
    exact ⟨List.append_nil w, rfl⟩

/-- What is found at the front of a text, and does not hold the character that ends it,
is found whatever comes after that character. -/
theorem prefix_append_cons_iff {c : Char} {w : List Char} (hc : c ∉ w) (x r : List Char) :
    w <+: x ++ c :: r ↔ w <+: x := by
  constructor
  · intro h
    rcases List.prefix_or_prefix_of_prefix h (List.prefix_append x _) with hfront | ⟨v, rfl⟩
    · exact hfront
    · cases v with
      | nil => exact (List.append_nil x).symm ▸ List.prefix_rfl
      | cons d v =>
        rw [List.prefix_append_right_inj, List.cons_prefix_cons] at h
        rw [h.1] at hc
        exact absurd (List.mem_append_right x List.mem_cons_self) hc
  · intro h
    exact h.trans (List.prefix_append x _)

end SourceTokens

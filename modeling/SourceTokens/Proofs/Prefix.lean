/-
# `SourceTokens.Proofs.Prefix` — what is read off the front of a text

Let a text begin with `x`, and let `t` be what comes after.  A case of the grammar that
begins within `x` either reads what it would read if nothing came after `x`, or it reads
past the end of `x`:

    Within t (read rule lineStart x) (read rule lineStart (x ++ t))

It has to be one or the other because a case never looks ahead of what it takes in order
to take less.  So the steps of a run that comes to stand at the end of `x` are those of a
run over `x` alone, whatever `t` is (`tokensFrom_of_visits`).
-/
import SourceTokens.Proofs.Loop

namespace SourceTokens

namespace Direct

variable {x t u w y : List Char}

/-! ## Searches -/

theorem length_le_of_after? (h : after? w x = some y) : w.length ≤ x.length := by
  induction x with
  | nil =>
    obtain ⟨rfl, _⟩ := Option.ite_none_right_eq_some.mp h
    exact Nat.le_refl _
  | cons c x ih =>
    rw [after?] at h
    split at h
    case isTrue hfront => exact hfront.length_le
    case isFalse => exact Nat.le_succ_of_le (ih h)

/-- What is found in a text is found in a longer one. -/
theorem after?_append_of_some (hw : w ≠ []) (h : after? w x = some y) :
    after? w (x ++ t) = some (y ++ t) := by
  induction x with
  | nil => exact absurd (Option.ite_none_right_eq_some.mp h).1 hw
  | cons c x ih =>
    have hlong := List.prefix_append (c :: x) t
    rw [after?] at h
    show after? w (c :: (x ++ t)) = _
    rw [after?]
    split at h
    case isTrue hfront =>
      cases h
      exact (if_pos (hfront.trans hlong)).trans
        (congrArg some (List.drop_append_of_le_length hfront.length_le))
    case isFalse hfront =>
      have hle := Nat.le_succ_of_le (length_le_of_after? h)
      have hmiss : ¬ w <+: c :: (x ++ t) := by
        intro hwhole
        exact hfront (List.prefix_of_prefix_length_le hwhole hlong hle)
      rw [if_neg hmiss, ih h]

theorem length_lt_of_after? (hw : w ≠ []) (h : after? w x = some u) :
    u.length < x.length := by
  induction x with
  | nil => exact absurd (Option.ite_none_right_eq_some.mp h).1 hw
  | cons c x ih =>
    rw [after?] at h
    split at h
    · cases h
      have := List.length_pos_iff.mpr hw
      rw [List.length_drop, List.length_cons]
      omega
    · exact Nat.lt_succ_of_lt (ih h)

/-- What is not found in a text is found past the end of it. -/
theorem length_lt_of_after?_append (hw : w ≠ []) (hnone : after? w x = none)
    (h : after? w (x ++ t) = some u) : u.length < t.length := by
  induction x with
  | nil => exact length_lt_of_after? hw h
  | cons c x ih =>
    rw [after?] at hnone
    split at hnone
    case isTrue => cases hnone
    case isFalse hfront =>
      have h : after? w (c :: (x ++ t)) = some u := h
      rw [after?] at h
      split at h
      case isFalse => exact ih hnone h
      case isTrue hlong =>
        cases h
        have hlt : (c :: x).length < w.length := by
          refine Nat.lt_of_not_le ?_
          intro hle
          refine hfront ?_
          exact List.prefix_of_prefix_length_le hlong (List.prefix_append (c :: x) t) hle
        have hle := hlong.length_le
        simp only [List.length_drop, List.length_cons, List.length_append] at hlt hle ⊢
        omega

theorem afterQuote?_append_of_some {q : Char} (h : afterQuote? q x = some y) :
    afterQuote? q (x ++ t) = some (y ++ t) := by
  induction x with
  | nil => cases h
  | cons c x ih =>
    cases x with
    | nil => cases h
    | cons d x =>
      rw [afterQuote?] at h
      show afterQuote? q (c :: d :: (x ++ t)) = _
      rw [afterQuote?]
      split at h
      case isTrue hquote => cases h; exact if_pos hquote
      case isFalse hquote => rw [if_neg hquote]; exact ih h

theorem length_lt_of_afterQuote? {q : Char} {c : Char} (h : afterQuote? q (c :: x) = some u) :
    u.length < x.length := by
  induction x generalizing c with
  | nil => cases h
  | cons d x ih =>
    rw [afterQuote?] at h
    split at h
    · cases h; exact Nat.lt_succ_self _
    · exact Nat.lt_succ_of_lt (ih h)

theorem length_lt_of_afterQuote?_append {q : Char} (hnone : afterQuote? q x = none)
    (h : afterQuote? q (x ++ t) = some u) : u.length < t.length := by
  induction x with
  | nil =>
    cases t with
    | nil => cases h
    | cons d t => exact Nat.lt_succ_of_lt (length_lt_of_afterQuote? h)
  | cons c x ih =>
    cases x with
    | nil => exact length_lt_of_afterQuote? h
    | cons d x =>
      rw [afterQuote?] at hnone
      have h : afterQuote? q (c :: d :: (x ++ t)) = some u := h
      rw [afterQuote?] at h
      split at hnone
      case isTrue => cases hnone
      case isFalse hquote => rw [if_neg hquote] at h; exact ih hnone h

/-- Whether or not it is found, what a search leaves is what it leaves of the front, or
less than what comes after. -/
theorem getD_append {o o' : Option (List Char)} (ht : t ≠ [])
    (hsome : ∀ y, o = some y → o' = some (y ++ t))
    (hnone : o = none → ∀ u, o' = some u → u.length < t.length) :
    o'.getD [] = o.getD [] ++ t ∨ (o'.getD []).length < t.length := by
  cases o with
  | some y => rw [hsome y rfl]; exact .inl rfl
  | none =>
    right
    cases o' with
    | none => exact List.length_pos_iff.mpr ht
    | some u => exact hnone rfl u rfl

theorem length_afterString_lt (quote : Char) (ht : t ≠ []) :
    (afterString quote t).length < t.length := by
  cases t with
  | nil => exact absurd rfl ht
  | cons c t =>
    rw [afterString]
    split
    · exact Nat.lt_succ_self _
    · cases h : afterQuote? quote (c :: t) with
      | none => exact Nat.succ_pos _
      | some u => exact Nat.lt_succ_of_lt (length_lt_of_afterQuote? h)

theorem afterString_append (quote : Char) (x : List Char) (ht : t ≠ []) :
    afterString quote (x ++ t) = afterString quote x ++ t
      ∨ (afterString quote (x ++ t)).length < t.length := by
  cases x with
  | nil => exact .inr (length_afterString_lt quote ht)
  | cons c x =>
    rw [List.cons_append, afterString, afterString]
    split
    case isTrue => exact .inl rfl
    case isFalse =>
      exact getD_append (o := afterQuote? quote (c :: x)) ht
        (fun _ => afterQuote?_append_of_some)
        fun hnone _ => length_lt_of_afterQuote?_append hnone

/-- A line that goes on past the front takes some of what comes after. -/
theorem length_afterLine_append_lt (hx : '\n' ∉ x) (ht : t ≠ []) :
    (afterLine (x ++ t)).length < t.length := by
  rw [Rule.afterLine_append hx]
  exact length_lt_of_suffix_tail ht (afterLine_suffix_tail t)

theorem afterLine_append_of_mem (hx : '\n' ∈ x) (t : List Char) :
    afterLine (x ++ t) = afterLine x ++ t := by
  have hleft : x.dropWhile (· ≠ '\n') ≠ [] := by
    intro hnil
    simpa using List.dropWhile_eq_nil_iff.mp hnil _ hx
  rw [afterLine, afterLine, (run_append_of_ne_nil hleft t).2,
    List.drop_append_of_le_length (List.length_pos_iff.mpr hleft)]

theorem afterLine_append (x : List Char) (ht : t ≠ []) :
    afterLine (x ++ t) = afterLine x ++ t ∨ (afterLine (x ++ t)).length < t.length := by
  by_cases hx : '\n' ∈ x
  · exact .inl (afterLine_append_of_mem hx t)
  · exact .inr (length_afterLine_append_lt hx ht)

/-! ## The cases -/

/-- What is made of a text with `t` after it is what is made of the text alone, or else
some of `t` is taken. -/
def Within {α : Type} (t : List Char) (alone whole : Option (α × List Char)) : Prop :=
  whole = (alone.map fun (a, y) => (a, y ++ t))
    ∨ ∃ a u, whole = some (a, u) ∧ u.length < t.length

namespace Within

variable {α β : Type} {alone whole alone' whole' : Option (α × List Char)} {a : α}

theorem refl_none (t : List Char) : Within t (none : Option (α × List Char)) none := .inl rfl

theorem map (f : α → β) (h : Within t alone whole) :
    Within t (alone.map fun (a, y) => (f a, y)) (whole.map fun (a, y) => (f a, y)) := by
  rcases h with h | ⟨a, u, h, hlt⟩
  · left
    rw [h, Option.map_map, Option.map_map]
    rfl
  · exact .inr ⟨f a, u, by rw [h]; rfl, hlt⟩

theorem of_some (h : Within t alone (some (a, y ++ t))) : alone = some (a, y) := by
  rcases h with hsame | ⟨_, u, hpast, hlt⟩
  · obtain ⟨⟨b, z⟩, halone, hz⟩ := Option.map_eq_some_iff.mp hsame.symm
    obtain ⟨hb, hzy⟩ := Prod.mk.inj (show (b, z ++ t) = (a, y ++ t) from hz)
    rw [halone, hb, List.append_cancel_right hzy]
  · cases hpast
    rw [List.length_append] at hlt
    exact absurd hlt (Nat.not_lt_of_le (Nat.le_add_left _ _))

theorem of_none (h : Within t alone none) : alone = none := by
  rcases h with hsame | ⟨_, _, hpast, _⟩
  · exact Option.map_eq_none_iff.mp hsame.symm
  · cases hpast

/-- It is so of what is left by a step that takes nothing but the front. -/
theorem of_left {v : List Char} {c : α} (h : u = v ++ t ∨ u.length < t.length) :
    Within t (some (c, v)) (some (c, u)) := by
  rcases h with rfl | hlt
  · exact .inl rfl
  · exact .inr ⟨c, u, rfl, hlt⟩

/-- It is so of two readings of which the second is tried when the first does not
apply. -/
theorem or (h : Within t alone whole) (h' : Within t alone' whole') :
    Within t (alone.or alone') (whole.or whole') := by
  rcases h with rfl | ⟨a, u, rfl, hlt⟩
  · cases alone with
    | none => exact h'
    | some b => exact .inl rfl
  · exact .inr ⟨a, u, rfl, hlt⟩

/-- It is so of a reading on a condition, if the condition is one on the front, or if
to meet it is to take some of what comes after. -/
theorem ite {p q : Prop} [Decidable p] [Decidable q] (hp : p → q)
    (hboth : p → Within t alone whole)
    (hpast : ¬ p → q → ∃ a u, whole = some (a, u) ∧ u.length < t.length)
    (hneither : ¬ q → Within t alone' whole') :
    Within t (if p then alone else alone') (if q then whole else whole') := by
  by_cases h : p
  · rw [if_pos h, if_pos (hp h)]
    exact hboth h
  by_cases h' : q
  · rw [if_neg h, if_pos h']
    exact .inr (hpast h h')
  · rw [if_neg h, if_neg h']
    exact hneither h'

end Within

theorem interpreterLine?_append (x t : List Char) :
    Within t (interpreterLine? x) (interpreterLine? (x ++ t)) := by
  rw [interpreterLine?, interpreterLine?]
  rcases run_append (· ≠ '\n') x t with ⟨htake, hdrop⟩ | hlt
  · rw [htake, hdrop]
    split
    · exact .inl rfl
    · exact .refl_none t
  · have hfront := takeWhile_prefix_append (· ≠ '\n') x t
    refine .ite ?_ ?_ ?_ ?_
    · rintro ⟨hmark, hne⟩
      refine ⟨hmark.trans hfront, ?_⟩
      intro heq
      rw [heq] at hfront
      exact hne (hfront.eq_of_length_le hmark.length_le)
    · intro _
      exact .inr ⟨_, _, rfl, hlt⟩
    · intro _ _
      exact ⟨_, _, rfl, hlt⟩
    · intro _
      exact .refl_none t

theorem dropWhile_append {α : Type} (p : Char → Bool) (x t : List Char) (a : α) :
    Within t (some (a, x.dropWhile p)) (some (a, (x ++ t).dropWhile p)) :=
  .of_left ((run_append p x t).imp And.right id)

theorem regular?_append (x t : List Char) :
    Within t (regular? x) (regular? (x ++ t)) := by
  rw [regular?, regular?]
  rcases run_append isRegular x t with ⟨htake, hdrop⟩ | hlt
  · rw [htake, hdrop]
    split
    · exact .refl_none t
    · exact .inl rfl
  · right
    refine ⟨_, _, if_neg ?_, hlt⟩
    intro hnil
    have happend := List.takeWhile_append_dropWhile (p := isRegular) (l := x ++ t)
    rw [hnil, List.nil_append] at happend
    rw [happend, List.length_append] at hlt
    omega

/-- Marks at the front: those that reach past the end of it take some of what comes
after. -/
theorem findSome?_append {α β : Type} {f : β → List Char} {g : β → α}
    (after : β → List Char → List Char) {l : List β}
    (hsuffix : ∀ b ∈ l, ∀ y, after b y <:+ y)
    (happend : ∀ b ∈ l, ∀ y, after b (y ++ t) = after b y ++ t
      ∨ (after b (y ++ t)).length < t.length) (x : List Char) :
    Within t
      (l.findSome? fun b =>
        if f b <+: x then some (g b, after b (x.drop (f b).length)) else none)
      (l.findSome? fun b =>
        if f b <+: x ++ t then some (g b, after b ((x ++ t).drop (f b).length))
        else none) := by
  induction l with
  | nil => exact .refl_none t
  | cons b l ih =>
    rw [Lexicon.findSome?_cons_eq_or, Lexicon.findSome?_cons_eq_or]
    refine .or (.ite ?_ ?_ ?_ ?_) (ih ?_ ?_)
    · intro hfront
      exact hfront.trans (List.prefix_append x t)
    · intro hfront
      rw [List.drop_append_of_le_length hfront.length_le]
      exact .of_left (happend b List.mem_cons_self _)
    · intro hmiss hfront
      have hlong : x.length < (f b).length := by
        refine Nat.lt_of_not_le ?_
        intro hle
        exact hmiss (List.prefix_of_prefix_length_le hfront (List.prefix_append x t) hle)
      refine ⟨_, _, rfl, ?_⟩
      have hle := (hsuffix b List.mem_cons_self ((x ++ t).drop (f b).length)).length_le
      have hwhole := hfront.length_le
      rw [List.length_drop, List.length_append] at hle
      rw [List.length_append] at hwhole
      omega
    · intro _
      exact .refl_none t
    · intro c hc
      exact hsuffix c (List.mem_cons_of_mem b hc)
    · intro c hc
      exact happend c (List.mem_cons_of_mem b hc)

theorem operator?_append (x t : List Char) :
    Within t (operator? x) (operator? (x ++ t)) :=
  findSome?_append (fun _ y => y) (fun _ _ _ => List.suffix_rfl)
    (fun _ _ _ => .inl rfl) x

theorem blockComment?_append (x : List Char) (ht : t ≠ []) :
    Within t (blockComment? x) (blockComment? (x ++ t)) := by
  have hclosing : ∀ b ∈ brackets, b.2.toList ≠ [] := by decide
  refine findSome?_append (fun (b : String × String) y => (after? b.2.toList y).getD [])
    ?_ ?_ x
  · intro b _ y
    exact getD_suffix (fun _ => suffix_of_after?) List.nil_suffix
  · intro b hb y
    exact getD_append ht (fun _ => after?_append_of_some (hclosing b hb))
      fun hnone _ => length_lt_of_after?_append (hclosing b hb) hnone

theorem lineComment?_append (lineStart : Bool) (x : List Char) (ht : t ≠ []) :
    Within t (lineComment? lineStart x) (lineComment? lineStart (x ++ t)) := by
  have hmarks : ∀ w ∈ lineMarks, w.toList ≠ [] ∧ '\n' ∉ w.toList := by decide
  rw [lineComment?, lineComment?]
  by_cases hblank : x.dropWhile isBlank = []
  · -- the mark, if there is one, comes after `x`
    have htext : (x ++ t).dropWhile isBlank = t.dropWhile isBlank := by
      rw [List.dropWhile_append, hblank]
      rfl
    rw [htext, hblank]
    refine .ite ?_ ?_ ?_ ?_
    · rintro ⟨_, w, hw, hfront⟩
      exact absurd (List.prefix_nil.mp hfront) (hmarks w hw).1
    · rintro ⟨_, w, hw, hfront⟩
      exact absurd (List.prefix_nil.mp hfront) (hmarks w hw).1
    · rintro _ ⟨_, w, hw, hfront⟩
      exact ⟨_, _, rfl, Nat.lt_of_lt_of_le (length_afterLine_lt hw hfront)
        (List.dropWhile_suffix _).length_le⟩
    · intro _
      exact .refl_none t
  · rw [(run_append_of_ne_nil hblank t).2]
    refine .ite ?_ ?_ ?_ ?_
    · rintro ⟨hstart, w, hw, hfront⟩
      exact ⟨hstart, w, hw, hfront.trans (List.prefix_append _ t)⟩
    · intro _
      exact .of_left (afterLine_append _ ht)
    · rintro hmiss ⟨hstart, w, hw, hfront⟩
      -- the mark reaches past the end of `x`, and no mark holds a newline
      have hfew : x.dropWhile isBlank <+: w.toList := by
        rcases List.prefix_or_prefix_of_prefix hfront (List.prefix_append _ t) with h | h
        · exact absurd ⟨hstart, w, hw, h⟩ hmiss
        · exact h
      refine ⟨_, _, rfl, length_afterLine_append_lt ?_ ht⟩
      intro hmem
      exact (hmarks w hw).2 (hfew.subset hmem)
    · intro _
      exact .refl_none t

theorem string?_append (quote : Char) (hx : x ≠ []) (ht : t ≠ []) :
    Within t (string? quote x) (string? quote (x ++ t)) := by
  obtain ⟨c, x, rfl⟩ := List.exists_cons_of_ne_nil hx
  show Within t (if c = quote then _ else _) (if c = quote then _ else _)
  by_cases hc : c = quote
  · rw [if_pos hc, if_pos hc]
    exact .of_left (afterString_append quote x ht)
  · rw [if_neg hc, if_neg hc]
    exact .refl_none t

theorem number?_append (hx : x ≠ []) (t : List Char) :
    Within t (number? x) (number? (x ++ t)) := by
  rw [number?, number?]
  have hdecimal : Within t
      (if x.head?.any Char.isDigit then some (([] : List Token), x.dropWhile isNumeral)
        else none)
      (if (x ++ t).head?.any Char.isDigit then some ([], (x ++ t).dropWhile isNumeral)
        else none) := by
    rw [head?_append_of_ne_nil hx]
    split
    · exact dropWhile_append isNumeral x t _
    · exact .refl_none t
  refine .ite ?_ ?_ ?_ fun _ => hdecimal
  · rintro ⟨hmark, hdigit⟩
    have hleft : x.drop 2 ≠ [] := by
      intro hnil
      rw [hnil] at hdigit
      cases hdigit
    have hdrop : (x ++ t).drop 2 = x.drop 2 ++ t :=
      List.drop_append_of_le_length hmark.length_le
    rw [hdrop, head?_append_of_ne_nil hleft]
    exact ⟨hmark.trans (List.prefix_append x t), hdigit⟩
  · rintro ⟨hmark, _⟩
    have hdrop : (x ++ t).drop 2 = x.drop 2 ++ t :=
      List.drop_append_of_le_length hmark.length_le
    rw [hdrop]
    exact dropWhile_append isNumeral _ t _
  · rintro hmiss ⟨hmark, hdigit⟩
    -- the digit comes after `x`, and it is taken
    have hshort : x.length ≤ 2 := by
      refine Nat.le_of_not_lt ?_
      intro hlong
      have hdrop : (x ++ t).drop 2 = x.drop 2 ++ t := List.drop_append_of_le_length hlong.le
      have hleft : x.drop 2 ≠ [] := by
        intro hnil
        exact absurd (List.drop_eq_nil_iff.mp hnil) (Nat.not_le_of_lt hlong)
      rw [hdrop, head?_append_of_ne_nil hleft] at hdigit
      exact hmiss ⟨List.prefix_of_prefix_length_le hmark (List.prefix_append x t) hlong.le, hdigit⟩
    have hnumber : (x ++ t).drop 2 ≠ [] := by
      intro hnil
      rw [hnil] at hdigit
      cases hdigit
    have hlt : (((x ++ t).drop 2).dropWhile isNumeral).length < ((x ++ t).drop 2).length :=
      length_lt_of_suffix_tail hnumber
        (dropWhile_suffix_tail (head?_takeWhile_ne_nil (any_isNumeral hdigit)))
    rw [List.length_drop, List.length_append] at hlt
    exact ⟨_, _, rfl, by omega⟩

theorem span?_append (x t : List Char) : Within t (span? x) (span? (x ++ t)) := by
  cases h : span? (x ++ t) with
  | none =>
    left
    cases hspan : span? x with
    | none => rfl
    | some a =>
      obtain ⟨c, m, hw, hcs, hblank, hangle, hm⟩ := of_span? hspan
      rw [hcs, hw, List.append_assoc, span?_eq_some hblank hangle hm] at h
      cases h
  | some a =>
    obtain ⟨w, u⟩ := a
    obtain ⟨c, m, rfl, hcs, hblank, hangle, hm⟩ := of_span? h
    by_cases hlt : u.length < t.length
    · exact .inr ⟨_, _, rfl, hlt⟩
    · left
      -- the span lies within `x`, and it is one whatever comes after it
      obtain ⟨y, rfl⟩ : t <:+ u :=
        List.suffix_of_suffix_length_le (List.suffix_append x t)
          (hcs ▸ List.suffix_append _ u) (Nat.le_of_not_lt hlt)
      rw [← List.append_assoc] at hcs
      rw [List.append_cancel_right hcs, span?_eq_some hblank hangle hm]
      rfl

/-! ## A step -/

/-- A case reads what it would read if nothing came after the front, or it reads past
the end of the front. -/
theorem read_append (rule : Rule) (lineStart : Bool) (hx : x ≠ []) (ht : t ≠ []) :
    Within t (read rule lineStart x) (read rule lineStart (x ++ t)) := by
  cases rule with
  | interpreterLine => exact interpreterLine?_append x t
  | lineComment => exact lineComment?_append lineStart x ht
  | blockComment => exact blockComment?_append x ht
  | doubleQuoted => exact string?_append '"' hx ht
  | singleQuoted => exact string?_append '\'' hx ht
  | number => exact number?_append hx t
  | tag => exact (span?_append x t).map tagTokens
  | punctuation =>
    obtain ⟨c, x, rfl⟩ := List.exists_cons_of_ne_nil hx
    left
    show (if _ then _ else _) = Option.map _ (if _ then _ else _)
    split <;> rfl
  | regular => exact regular?_append x t
  | operator => exact operator?_append x t

/-- A step that does not read past the end of the front is the step that is taken if
nothing comes after it. -/
theorem step_append {lineStart : Bool} (hx : x ≠ []) (ht : t ≠ [])
    (h : (step lineStart (x ++ t)).2 = y ++ t) :
    step lineStart x = ((step lineStart (x ++ t)).1, y) := by
  have hwithin := fun rule => read_append rule lineStart hx ht
  cases hfirst : order.findSome? (read · lineStart (x ++ t)) with
  | none =>
    have hmiss := List.findSome?_eq_none_iff.mp hfirst
    have hnone : order.findSome? (read · lineStart x) = none := by
      refine List.findSome?_eq_none_iff.mpr ?_
      intro r hr
      have hw := hwithin r
      rw [hmiss r hr] at hw
      exact hw.of_none
    rw [step, hfirst] at h
    rw [step, step, hfirst, hnone]
    obtain ⟨c, x, rfl⟩ := List.exists_cons_of_ne_nil hx
    exact congrArg (([], ·)) (List.append_cancel_right h)
  | some a =>
    obtain ⟨before, rule, after, horder, hread, hbefore⟩ :=
      List.findSome?_eq_some_iff.mp hfirst
    rw [step, hfirst] at h
    obtain ⟨ts, u⟩ := a
    obtain rfl : u = y ++ t := h
    have hsame : order.findSome? (read · lineStart x) = some (ts, y) := by
      refine List.findSome?_eq_some_iff.mpr ⟨before, rule, after, horder, ?_, ?_⟩
      · have hw := hwithin rule
        rw [hread] at hw
        exact hw.of_some
      · intro r hr
        have hw := hwithin r
        rw [hbefore r hr] at hw
        exact hw.of_none
    rw [step, step, hfirst, hsame]
    rfl

theorem endsLine_append (h : y <:+ x) (t : List Char) :
    endsLine (x ++ t) (y ++ t) = endsLine x y := by
  have hle := h.length_le
  have hlength : (x ++ t).length - (y ++ t).length = x.length - y.length := by
    rw [List.length_append, List.length_append]
    omega
  rw [endsLine, endsLine, hlength, List.take_append_of_le_length (Nat.sub_le _ _)]

end Direct

/-! ## The run -/

namespace Source

open Direct

/-- A run that comes to stand at the end of the front has found the tokens of the front,
and goes on to find those of what comes after. -/
theorem tokensFrom_of_visits {a s : Scanner} {x : List Char} (h : Visits a s)
    (ha : a.Settled) (hx : a.rest = x ++ s.rest) (hs : s.rest ≠ []) :
    tokensFrom a.startsLine a.rest
      = tokensFrom a.startsLine x ++ tokensFrom s.startsLine s.rest := by
  induction h generalizing x with
  | here s =>
    obtain rfl : x = [] := List.self_eq_append_left.mp hx
    rw [tokensFrom_nil, List.nil_append]
  | @later a s ha' hvisits ih =>
    obtain ⟨y, hy⟩ := rest_of_visits hvisits
    have hrest : (step a).2.rest = (Direct.step a.startsLine (x ++ s.rest)).2 := by
      rw [step_eq_upTo ha, Scanner.rest_upTo, hx]
    have hsuffix : y <:+ x := by
      obtain ⟨v, hv⟩ := (rest_step a).trans (List.tail_suffix _)
      rw [← hy, hx, ← List.append_assoc] at hv
      exact ⟨v, (List.append_left_inj _).mp hv⟩
    have hne : x ≠ [] := by
      rintro rfl
      have hlt := length_lt_of_suffix_tail ha' (rest_step a)
      rw [← hy, hx, List.suffix_nil.mp hsuffix] at hlt
      exact Nat.lt_irrefl _ hlt
    have hstep := step_append hne hs (hrest.symm.trans hy.symm)
    have hlines : (step a).2.startsLine = endsLine x y := by
      rw [← endsLine_append hsuffix s.rest, ← hx, hy, step_eq_upTo ha]
      exact Scanner.startsLine_upTo (Scanner.before_ne_nil ha' (step_suffix _ _))
    have hx' : x ++ s.rest ≠ [] := hx ▸ ha'
    have htail := ih (settled_step ha ha') hy.symm hs
    rw [hx, tokensFrom_of_ne_nil hx', tokensFrom_of_ne_nil hne, hstep, ← hrest, ← hy,
      endsLine_append hsuffix, ← hlines, hy, htail, List.append_assoc]

end Source

end SourceTokens

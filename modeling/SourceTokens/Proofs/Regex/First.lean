/-
# `SourceTokens.Proofs.Regex.First` — matching as backtracking over what is left

`r.first cs k` walks the ends of `r` on the text `cs` and hands what each leaves to
`k`, until `k` makes something of it.  For expressions that look only ahead it has
the equations of a backtracking matcher, one for each way to build an expression:

    (seq r s).first cs k = r.first cs fun t => s.first t k
    (alt r s).first cs k = (r.first cs k).or (s.first cs k)

The preferred match is what `k := some` makes of it, and the leftmost match is the
preferred one of the longest rest that has any.
-/
import SourceTokens.Proofs.Regex.Ways

namespace SourceTokens.Regex

variable {α : Type}

/-- What `k` makes of the text left by the first end of which it makes anything. -/
def first (r : Regex) (cs : List Char) (k : List Char → Option α) : Option α :=
  (r.ends (.start cs)).findSome? fun q => k q.ahead

/-- What the preferred match leaves of a text. -/
def matchRest? (r : Regex) (cs : List Char) : Option (List Char) := r.first cs some

/-- What the leftmost match leaves of a text. -/
def findRest? (r : Regex) (cs : List Char) : Option (List Char) :=
  (r.find (.start cs)).map Point.ahead

/-- Where the text stands makes no difference to an expression that looks ahead. -/
theorem findSome?_ends {r : Regex} (hr : r.looksAhead = true) (p : Point)
    (k : List Char → Option α) :
    (r.ends p).findSome? (fun q => k q.ahead) = r.first p.ahead k := by
  rw [p.eq_shift_start, shifts_ends hr, List.findSome?_map]
  rfl

/-! ## The equations of a backtracking matcher -/

section Equations

variable (cs : List Char) (k : List Char → Option α)

theorem first_empty : empty.first cs k = k cs :=
  List.findSome?_singleton

theorem first_seq (r : Regex) {s : Regex} (hs : s.looksAhead = true) :
    (seq r s).first cs k = r.first cs fun t => s.first t k := by
  rw [first, agree_ends_seq r s _ α _, findSome?_flatMap]
  exact congrArg (List.findSome? · _) (funext fun m => findSome?_ends hs m k)

theorem first_alt (r s : Regex) :
    (alt r s).first cs k = (r.first cs k).or (s.first cs k) := by
  rw [first, agree_ends_alt r s _ α _, List.findSome?_append]
  rfl

theorem first_oneOf (r : Regex) (rs : List Regex) :
    (oneOf (r :: rs)).first cs k = (r :: rs).findSome? fun r => r.first cs k := by
  suffices h : ∀ r : Regex, (rs.foldl alt r).first cs k
      = (r.first cs k).or (rs.findSome? fun r => r.first cs k) by
    rw [List.findSome?_cons, oneOf, h]
    cases r.first cs k <;> rfl
  induction rs with
  | nil => intro r; rw [List.findSome?_nil, Option.or_none]; rfl
  | cons s rs ih =>
    intro r
    rw [List.foldl_cons, ih, first_alt, Option.or_assoc, List.findSome?_cons]
    cases s.first cs k <;> rfl

theorem first_one_cons (a : Class) (c : Char) (t : List Char) :
    (one a).first (c :: t) k = if a.contains c then k t else none := by
  show List.findSome? _ (if a.contains c then [_] else []) = _
  cases a.contains c with
  | true => exact List.findSome?_singleton
  | false => rfl

/-! ### Texts -/

theorem first_char_nil (c : Char) : (char c).first [] k = none := rfl

theorem first_char_cons (c d : Char) (t : List Char) :
    (char c).first (d :: t) k = if d = c then k t else none := by
  rw [char, first_one_cons, Class.contains_char]
  simp only [decide_eq_true_eq]

theorem first_foldl_char (w : List Char) (r : Regex) :
    ((w.map char).foldl seq r).first cs k
      = r.first cs fun t => if w <+: t then k (t.drop w.length) else none := by
  induction w generalizing r with
  | nil => simp
  | cons c w ih =>
    rw [List.map_cons, List.foldl_cons, ih, first_seq _ _ _ rfl]
    congr 1
    funext t
    cases t with
    | nil => rw [first_char_nil, if_neg (by simp)]
    | cons d t =>
      rw [first_char_cons]
      by_cases h : d = c
      · subst h; simp
      · rw [if_neg h, if_neg fun hp => h (List.cons_prefix_cons.mp hp).1.symm]

/-- A text is read where it stands, and nowhere else. -/
theorem first_text (w : String) :
    (text w).first cs k
      = if w.toList <+: cs then k (cs.drop w.toList.length) else none := by
  rw [text]
  cases w.toList with
  | nil => rw [if_pos List.nil_prefix]; exact first_empty cs k
  | cons c w =>
    show ((w.map char).foldl seq (char c)).first cs k = _
    rw [first_foldl_char]
    cases cs with
    | nil => rw [first_char_nil, if_neg (by simp)]
    | cons d t =>
      rw [first_char_cons]
      by_cases h : d = c
      · subst h; simp
      · rw [if_neg h, if_neg fun hp => h (List.cons_prefix_cons.mp hp).1.symm]

theorem first_oneOf_text (w : String) (ws : List String) :
    (oneOf ((w :: ws).map text)).first cs k
      = (w :: ws).findSome? fun w =>
          if w.toList <+: cs then k (cs.drop w.toList.length) else none := by
  rw [List.map_cons, first_oneOf, ← List.map_cons, List.findSome?_map]
  exact congrArg (List.findSome? · _) (funext fun w => first_text cs k w)

end Equations

/-! ### Repetition -/

section Repetition

variable {a : Class} {k : List Char → Option α}

theorem ends_star_one (a : Class) (p : Point) : (star (one a)).ends p = a.run p [] := by
  show List.reverse (List.drop 0 (List.reverse _)) = _
  rw [List.drop_zero, List.reverse_reverse]

theorem ends_plus_one (a : Class) (p : Point) :
    (plus (one a)).ends p = (a.run p []).dropLast := by
  show List.reverse (List.drop 1 (List.reverse _)) = _
  rw [List.drop_one, ← List.dropLast_reverse, List.reverse_reverse]

theorem first_star_nil : (star (one a)).first [] k = k [] := by
  rw [first]
  rw [ends_star_one, Class.run_of_nil rfl]
  exact List.findSome?_singleton

/-- One more character, if that leads anywhere; else none. -/
theorem first_star_cons (c : Char) (t : List Char) :
    (star (one a)).first (c :: t) k
      = if a.contains c then ((star (one a)).first t k).or (k (c :: t))
        else k (c :: t) := by
  rw [first]
  rw [ends_star_one, Class.ends_run_cons (c := c) (t := t) rfl]
  split
  case isTrue =>
    rw [List.findSome?_append, List.findSome?_singleton, ← ends_star_one]
    exact congrArg (Option.or · _) (findSome?_ends (r := star (one a)) rfl _ k)
  case isFalse => exact List.findSome?_singleton

theorem first_plus_nil : (plus (one a)).first [] k = none := by
  rw [first]
  rw [ends_plus_one, Class.run_of_nil rfl]
  rfl

theorem first_plus_cons (c : Char) (t : List Char) :
    (plus (one a)).first (c :: t) k
      = if a.contains c then (star (one a)).first t k else none := by
  rw [first]
  rw [ends_plus_one, Class.ends_run_cons (c := c) (t := t) rfl]
  split
  case isTrue =>
    rw [List.dropLast_concat, ← ends_star_one]
    exact findSome?_ends (r := star (one a)) rfl _ k
  case isFalse => rfl

/-- A repetition goes as far as it can when that is good enough. -/
theorem first_star_of_some {cs : List Char} {x : α}
    (h : k (cs.dropWhile a.contains) = some x) : (star (one a)).first cs k = some x := by
  induction cs with
  | nil => rw [first_star_nil]; exact h
  | cons c t ih =>
    rw [first_star_cons]
    rw [List.dropWhile_cons] at h
    split
    case isTrue hc => rw [ih (by rwa [if_pos hc] at h)]; rfl
    case isFalse hc => rwa [if_neg hc] at h

/-- A repetition goes as far as it can when what follows cannot begin with one of
its characters. -/
theorem first_star_of_disjoint (h : ∀ c t, a.contains c = true → k (c :: t) = none)
    (cs : List Char) : (star (one a)).first cs k = k (cs.dropWhile a.contains) := by
  induction cs with
  | nil => exact first_star_nil
  | cons c t ih =>
    rw [first_star_cons, List.dropWhile_cons]
    split
    case isTrue hc => rw [ih, h c t hc, Option.or_none]
    case isFalse => rfl

/-- One or none: with it if that leads anywhere, else without. -/
theorem first_opt (r : Regex) (cs : List Char) (k : List Char → Option α) :
    (opt r).first cs k = (r.first cs k).or (k cs) := by
  have hways : ∀ p, Ways.repeated r.ends false 0 (some 1) p = r.ends p ++ [p] := by
    intro p
    rw [Ways.repeated_some]
    show [p].flatMap (fun p => (r.ends p).flatMap (fun q => [q]) ++ [p]) = _
    rw [List.flatMap_singleton, List.flatMap_singleton']
  rw [first, opt, agree_ends_times r 0 (some 1) false _ α _, hways, List.findSome?_append,
    List.findSome?_singleton]
  rfl

end Repetition

/-! ## Matches -/

theorem map_ahead_matchAt (r : Regex) (cs : List Char) :
    (r.matchAt (.start cs)).map Point.ahead = r.matchRest? cs := by
  unfold matchAt matchRest? first
  cases r.ends (.start cs) <;> rfl

theorem suffix_of_matchRest? {r : Regex} {cs t : List Char}
    (h : r.matchRest? cs = some t) : t <:+ cs := by
  rw [← map_ahead_matchAt] at h
  obtain ⟨q, hq, rfl⟩ := Option.map_eq_some_iff.mp h
  obtain ⟨w, hw, _⟩ := matchAt_reaches hq
  exact ⟨w, hw.symm⟩

theorem suffix_of_findRest? {r : Regex} {cs t : List Char}
    (h : r.findRest? cs = some t) : t <:+ cs := by
  obtain ⟨q, hq, rfl⟩ := Option.map_eq_some_iff.mp h
  obtain ⟨w, hw, _⟩ := find_reaches hq
  exact ⟨w, hw.symm⟩

theorem findRest?_nil (r : Regex) : r.findRest? [] = r.matchRest? [] := by
  rw [← map_ahead_matchAt, findRest?, find.eq_def]
  cases r.matchAt (.start []) <;> rfl

theorem findRest?_cons {r : Regex} (hr : r.looksAhead = true) (c : Char)
    (t : List Char) :
    r.findRest? (c :: t) = (r.matchRest? (c :: t)).or (r.findRest? t) := by
  rw [← map_ahead_matchAt, findRest?, find.eq_def]
  cases r.matchAt (.start (c :: t)) with
  | some q => rfl
  | none =>
    have hread : (Point.start (c :: t)).read c t = (Point.start t).shift [c] := rfl
    show (r.find ((Point.start (c :: t)).read c t)).map Point.ahead = r.findRest? t
    rw [hread, find_shift hr, Option.map_map]
    rfl

end SourceTokens.Regex

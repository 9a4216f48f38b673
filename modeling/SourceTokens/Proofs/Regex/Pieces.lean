/-
# `SourceTokens.Proofs.Regex.Pieces` — the pieces of a pattern stand by themselves

A reader that stops inside the text it is given reads the same with more text behind it
(`Reader.Keeps`).  Nearly every reader of a pattern does, for there is something that it
waits for, and what is put together from such readers does as well.  The others look at what
is ahead only to see whether it is theirs: a question mark, a brace, a name.  A closing
bracket is none of these, so a text with one behind it has the pieces that it has by itself,
and the bracket is one more (`pieces_append_closing`).

There is one exception.  In a verbose pattern, a comment that nothing ends goes through the
end of the text, and a bracket behind the text is in the comment.
-/
import SourceTokens.Proofs.Except
import SourceTokens.Proofs.Runs
import SourceTokens.Regex.Piece

namespace SourceTokens.Regex

variable {α β : Type} {s t : List Char} {v : Bool} {e : Malformed}

/-! ## Blanks and comments -/

theorem pastBlanks_append {comment : Bool} (h : pastBlanks comment s ≠ []) (t : List Char) :
    pastBlanks comment (s ++ t) = pastBlanks comment s ++ t := by
  fun_induction pastBlanks comment s with
  | case1 => exact absurd rfl h
  | case2 c s ih => exact ih h
  | case3 c s hc ih =>
    rw [List.cons_append, pastBlanks, if_pos hc]
    exact ih h
  | case4 s hc ih =>
    rw [List.cons_append, pastBlanks, if_neg hc, if_pos rfl]
    exact ih h
  | case5 c s hc hc' => rw [List.cons_append, pastBlanks, if_neg hc, if_neg hc']

/-- Behind blanks and comments alone, what follows may be inside the last comment. -/
theorem pastBlanks_append_of_nil {comment : Bool} (h : pastBlanks comment s = [])
    (t : List Char) : pastBlanks comment (s ++ t) = pastBlanks (isRemark comment s) t := by
  fun_induction pastBlanks comment s with
  | case1 => rfl
  | case2 c s ih => exact ih h
  | case3 c s hc ih =>
    rw [List.cons_append, pastBlanks, isRemark, if_pos hc, if_pos hc]
    exact ih h
  | case4 s hc ih =>
    rw [List.cons_append, pastBlanks, isRemark, if_neg hc, if_neg hc, if_pos rfl, if_pos rfl]
    exact ih h
  | case5 => cases h

theorem isRemark_append_of_nil {comment : Bool} (h : pastBlanks comment s = [])
    (t : List Char) : isRemark comment (s ++ t) = isRemark (isRemark comment s) t := by
  fun_induction pastBlanks comment s with
  | case1 => rfl
  | case2 c s ih => exact ih h
  | case3 c s hc ih =>
    rw [List.cons_append, isRemark, isRemark, if_pos hc, if_pos hc]
    exact ih h
  | case4 s hc ih =>
    rw [List.cons_append, isRemark, isRemark, if_neg hc, if_neg hc, if_pos rfl, if_pos rfl]
    exact ih h
  | case5 => cases h

theorem skip_closing (v : Bool) : skip v [')'] = [')'] := by
  cases v <;> rfl

theorem skip_append (h : skip v s ≠ []) (t : List Char) : skip v (s ++ t) = skip v s ++ t := by
  cases v with
  | false => rfl
  | true => exact pastBlanks_append h t

theorem skip_append_of_cons {c : Char} {r : List Char} (h : skip v s = c :: r) (t : List Char) :
    skip v (s ++ t) = c :: (r ++ t) := by
  rw [skip_append (h ▸ List.cons_ne_nil c r), h, List.cons_append]

/-- A closing bracket behind blanks and comments is the first thing there is, unless it is
in the last comment. -/
theorem skip_append_closing (h : skip v s = []) :
    skip v (s ++ [')']) = if endsInRemark v s then [] else [')'] := by
  cases v with
  | false =>
    obtain rfl : s = [] := h
    rfl
  | true =>
    show pastBlanks false (s ++ [')']) = if isRemark false s then [] else [')']
    rw [pastBlanks_append_of_nil h]
    cases isRemark false s <;> rfl

theorem endsInRemark_append_closing (h : skip v s = []) :
    endsInRemark v (s ++ [')']) = endsInRemark v s := by
  cases v with
  | false => rfl
  | true =>
    show isRemark false (s ++ [')']) = isRemark false s
    rw [isRemark_append_of_nil h]
    cases isRemark false s <;> rfl

/-! ## Readers that keep to themselves -/

/-- The same reading, with more text behind what is left. -/
def Reading.extend (t : List Char) (r : Reading α s) : Reading α (s ++ t) :=
  ⟨r.value, r.rest ++ t, by
    obtain ⟨w, hw⟩ := r.suffix
    exact ⟨w, by rw [← List.append_assoc, hw]⟩⟩

/-- With `t` behind the text, the reader reads what it reads without it. -/
def Reader.Keeps (t : List Char) (r : Reader α) : Prop :=
  ∀ ⦃s : List Char⦄ ⦃p : Reading α s⦄, r s = .ok p → r (s ++ t) = .ok (p.extend t)

namespace Reader

theorem Keeps.pure (a : α) : Keeps t (pure a : Reader α) := by
  intro s p h
  cases h
  rfl

theorem Keeps.fail : Keeps t (fail e : Reader α) := by
  intro s p h
  cases h

theorem Keeps.bind {r : Reader α} {f : α → Reader β} (hr : r.Keeps t) (hf : ∀ a, (f a).Keeps t) :
    (r >>= f).Keeps t := by
  intro s q h
  obtain ⟨p, hp, h⟩ := bind_eq_ok_iff.mp h
  obtain ⟨q, hq, h⟩ := bind_eq_ok_iff.mp h
  cases h
  show (r (s ++ t) >>= fun p => f p.value p.rest >>= fun q => .ok (q.behind p.suffix)) = _
  rw [hr hp]
  show (f p.value (p.rest ++ t) >>= fun q => .ok (q.behind _)) = _
  rw [hf p.value hq]
  rfl

theorem Keeps.ite {c : Prop} [Decidable c] {r q : Reader α} (hr : r.Keeps t) (hq : q.Keeps t) :
    (if c then r else q).Keeps t := by
  split
  · exact hr
  · exact hq

theorem Keeps.next : Keeps t (next e) := by
  intro s p h
  cases s with
  | nil => cases h
  | cons c s =>
    cases h
    rfl

theorem Keeps.peek : Keeps t (peek e) := by
  intro s p h
  cases s with
  | nil => cases h
  | cons c s =>
    cases h
    rfl

theorem Keeps.blanks : Keeps t (blanks v e) := by
  intro s p h
  rw [Reader.blanks] at h ⊢
  split at h
  case isTrue => cases h
  case isFalse hs =>
    cases h
    have hne : skip v s ++ t ≠ [] := List.append_ne_nil_of_left_ne_nil hs t
    simp only [skip_append hs, if_neg hne]
    rfl

theorem Keeps.ofOption (o : Option α) : Keeps t (ofOption e o) := by
  cases o with
  | none => exact .fail
  | some a => exact .pure a

theorem Keeps.gather (n : Nat) : Keeps t (gather v e n) := by
  induction n with
  | zero => exact .pure []
  | succ n ih => exact .bind .blanks fun _ => .bind .next fun _ => .bind ih fun _ => .pure _

theorem upToBrace_of_skip {c : Char} {r : List Char} (h : skip v s = c :: r) :
    upToBrace v e s = if c = '\x7d' then .ok ⟨[], r, suffix_of_skip h⟩ else do
      let q ← upToBrace v e r
      return ⟨c :: q.value, q.rest, q.suffix.trans (suffix_of_skip h)⟩ := by
  rw [upToBrace]
  split
  case h_1 hnil => cases h.symm.trans hnil
  case h_2 hcons =>
    cases h.symm.trans hcons
    rfl

theorem Keeps.upToBrace : Keeps t (upToBrace v e) := by
  intro s p h
  fun_induction Reader.upToBrace v e s with
  | case1 => cases h
  | case2 s r hs =>
    cases h
    have hskip := skip_append_of_cons hs t
    rw [upToBrace_of_skip hskip, if_pos rfl]
    rfl
  | case3 s c r hs hc ih =>
    obtain ⟨q, hq, h⟩ := bind_eq_ok_iff.mp h
    cases h
    have hskip := skip_append_of_cons hs t
    rw [upToBrace_of_skip hskip, if_neg hc, ih hq]
    rfl

end Reader

open Reader (Keeps)

theorem head?_append_closing_ne {c : Char} (hs : s.head? ≠ some c) (hc : ')' ≠ c) :
    (s ++ [')']).head? ≠ some c := by
  cases s with
  | nil => exact mt Option.some.inj hc
  | cons d s => exact hs

/-! ## Escapes -/

theorem keeps_hexEscape (width : Nat) : Keeps t (hexEscape v width) := by
  refine .bind .blanks fun _ => .bind .peek fun c => .ite ?braces ?digits
  case braces =>
    exact .bind .next fun _ => .bind .upToBrace fun _ => .bind (.ofOption _) fun _ => .pure _
  case digits => exact .bind (.gather width) fun _ => .bind (.ofOption _) fun _ => .pure _

theorem keeps_propertyEscape (negated : Bool) : Keeps t (propertyEscape v negated) := by
  refine .bind .blanks fun _ => .bind .next fun c => .ite ?braces (.ite .fail (.pure _))
  case braces => exact .bind .upToBrace fun _ => .pure _

theorem keeps_boundaryName : Keeps t (boundaryName v) :=
  .bind .upToBrace fun _ => .bind (.ofOption _) fun _ => .pure _

theorem keeps_boundaryEscape : Keeps [')'] (boundaryEscape v) := by
  intro s p h
  by_cases hs : s.head? = some '\x7b'
  case neg =>
    have hplain : ∀ w : List Char, w.head? ≠ some '\x7b' →
        boundaryEscape v w = .ok ⟨.look (.word .boundary), w, List.suffix_refl w⟩ := by
      intro w hw
      rw [boundaryEscape.eq_def]
      split
      case h_1 => exact absurd rfl hw
      case h_2 => rfl
    rw [hplain s hs] at h
    cases h
    rw [hplain _ (head?_append_closing_ne hs (by decide))]
    rfl
  case pos =>
    obtain ⟨s, rfl⟩ := List.head?_eq_some_iff.mp hs
    rw [boundaryEscape] at h
    show boundaryEscape v ('\x7b' :: (s ++ [')'])) = _
    rw [boundaryEscape]
    split at h
    case h_1 => cases h
    case h_2 c w hw =>
      have hskip := skip_append_of_cons hw [')']
      rw [hskip]
      split at h
      case isTrue hc =>
        obtain ⟨q, hq, rfl⟩ := map_eq_ok_iff.mp h
        show (if _ then _ else _) = _
        rw [if_pos hc, keeps_boundaryName hq]
        rfl
      case isFalse hc =>
        cases h
        exact if_neg hc

theorem keeps_escape : Keeps [')'] (escape v) := by
  refine .bind .next fun c => ?_
  unfold escapeOf
  split
  case h_15 => exact keeps_boundaryEscape
  case h_19 => exact keeps_hexEscape 2
  case h_20 => exact keeps_hexEscape 4
  case h_21 => exact keeps_hexEscape 8
  case h_22 => exact keeps_propertyEscape false
  case h_23 => exact keeps_propertyEscape true
  case h_24 => exact .ite (.pure _) .fail
  all_goals exact .pure _

/-! ## Bracketed classes -/

theorem hyphens_of_skip {d : Char} {r : List Char} (h : skip v s = d :: r) :
    hyphens v ('-' :: s) = do
      let q ← hyphens v (d :: r)
      return ⟨q.value + 1, q.rest,
        q.suffix.trans ((h ▸ skip_suffix v s).trans (List.suffix_cons '-' s))⟩ := by
  rw [hyphens, if_pos rfl]
  split
  case h_1 hnil => cases h.symm.trans hnil
  case h_2 hcons =>
    cases h.symm.trans hcons
    rfl

theorem keeps_hyphens : Keeps t (hyphens v) := by
  intro s p h
  fun_induction hyphens v s with
  | case1 => cases h
  | case2 => cases h
  | case3 s d r hs ih =>
    obtain ⟨q, hq, h⟩ := bind_eq_ok_iff.mp h
    cases h
    have hskip := skip_append_of_cons hs t
    show hyphens v ('-' :: (s ++ t)) = _
    rw [hyphens_of_skip hskip]
    have hmore : hyphens v (d :: (r ++ t)) = .ok (q.extend t) := ih hq
    rw [hmore]
    rfl
  | case4 c s hc =>
    cases h
    show hyphens v (c :: (s ++ t)) = _
    rw [hyphens, if_neg hc]
    rfl

theorem keeps_classOpening : Keeps t (classOpening v) := by
  have hsign : Keeps t (classSign v) :=
    .bind .peek fun _ => .ite (.bind .next fun _ => .bind .blanks fun _ => .pure _) (.pure _)
  have hfront : Keeps t (classFront v) :=
    .bind keeps_hyphens fun _ => .bind .peek fun _ =>
      .ite (.bind .next fun _ => .bind .blanks fun _ => .pure _) (.pure _)
  exact .bind .blanks fun _ => .bind hsign fun _ => .bind hfront fun _ => .pure _

theorem keeps_classAtom (c : Char) : Keeps [')'] (classAtom v c) :=
  .ite keeps_escape (.pure _)

/-- A bracket behind the text is no part of a range. -/
theorem behindHyphen_append (s : List Char) :
    behindHyphen v (s ++ [')']) = (behindHyphen v s).or (some ')') := by
  have hdrop : ∀ w : List Char, (w ++ [')']).dropWhile Text.isWhiteSpace
      = w.dropWhile Text.isWhiteSpace ++ [')'] := by
    intro w
    rw [List.dropWhile_append]
    split
    case isTrue hnil =>
      rw [List.isEmpty_iff.mp hnil]
      rfl
    case isFalse => rfl
  have hsign : ∀ w : List Char, (pastSign (w ++ [')'])).head?
      = (pastSign w).head?.or (some ')') := by
    intro w
    cases w with
    | nil => rfl
    | cons c w =>
      by_cases hc : c = '#'
      case pos =>
        subst hc
        show ((w ++ [')']).dropWhile Text.isWhiteSpace).head? = _
        rw [hdrop, List.head?_append]
        rfl
      case neg =>
        have hplain : ∀ x : List Char, pastSign (c :: x) = c :: x := by
          intro x
          rw [pastSign]
          intro s h
          exact hc (List.cons.inj h).1
        rw [List.cons_append, hplain, hplain]
        rfl
  cases v with
  | false => exact List.head?_append
  | true =>
    show (pastSign ((s ++ [')']).dropWhile Text.isWhiteSpace)).head? = _
    rw [hdrop, hsign]
    rfl

theorem keeps_rangeAhead : Keeps [')'] (rangeAhead v) := by
  intro s p h
  cases s with
  | nil => cases h
  | cons c s =>
    cases h
    have hne : ∀ d : Char, d ≠ ')' →
        (behindHyphen v (s ++ [')']) ≠ some d ↔ behindHyphen v s ≠ some d) := by
      intro d hd
      rw [behindHyphen_append]
      cases behindHyphen v s with
      | none => simp [hd.symm]
      | some c => rfl
    have hvalue : (c = '-' ∧ behindHyphen v (s ++ [')']) ≠ some ']' ∧
          behindHyphen v (s ++ [')']) ≠ some '-')
        ↔ (c = '-' ∧ behindHyphen v s ≠ some ']' ∧ behindHyphen v s ≠ some '-') := by
      rw [hne ']' (by decide), hne '-' (by decide)]
    simp only [List.cons_append, rangeAhead, Reading.extend, hvalue]

theorem keeps_classItem (c : Char) : Keeps [')'] (classItem v c) := by
  refine .bind (keeps_classAtom c) fun _ => .bind .blanks fun _ => .bind keeps_rangeAhead fun _ =>
    .ite ?range (.pure _)
  case range =>
    exact .bind .next fun _ => .bind .blanks fun _ => .bind .next fun _ =>
      .bind (keeps_classAtom _) fun _ => .pure _

theorem keeps_operatorOrItem (c : Char) : Keeps [')'] (operatorOrItem v c) := by
  intro s p h
  cases ho : ClassOperator.ofChar? c with
  | none =>
    have hitem : ∀ w, operatorOrItem v c w = classItem v c w := by
      intro w
      rw [operatorOrItem, ho]
    rw [hitem] at h
    rw [hitem]
    exact keeps_classItem c h
  | some o =>
    have hmore : ∀ d w, operatorOrItem v c (d :: w)
        = if d = c then .ok ⟨.classOperator o, w, List.suffix_cons d w⟩
          else classItem v c (d :: w) := by
      intro d w
      rw [operatorOrItem, ho]
    cases s with
    | nil =>
      have hc : ')' ≠ c := by
        rintro rfl
        cases ho
      rw [operatorOrItem, ho] at h
      show operatorOrItem v c [')'] = _
      rw [hmore, if_neg hc]
      exact keeps_classItem c h
    | cons d s =>
      rw [hmore] at h
      show operatorOrItem v c (d :: (s ++ [')'])) = _
      rw [hmore]
      split at h
      case isTrue hd =>
        cases h
        rw [if_pos hd]
        rfl
      case isFalse hd =>
        rw [if_neg hd]
        exact keeps_classItem c h

/-- No class has a name with a bracket in it. -/
theorem lookup_named_eq_none {name : List Char} (h : ')' ∈ name) :
    Class.named.lookup (.ofList name) = none := by
  have hnames : ∀ p ∈ Class.named, ')' ∉ p.1.toList := by decide
  cases hlookup : Class.named.lookup (.ofList name) with
  | none => rfl
  | some a =>
    obtain ⟨before, behind, hnamed, -⟩ := List.lookup_eq_some_iff.mp hlookup
    refine absurd ?_ (hnames (.ofList name, a) (hnamed ▸ by simp))
    rwa [String.toList_ofList]

theorem nameEnd?_append (s : List Char) :
    nameEnd? (s ++ [')']) = (nameEnd? s).map (· ++ [')']) := by
  have hne : ∀ c w, c ≠ ':' → nameEnd? (c :: w) = none := by
    intro c w hc
    rw [nameEnd?]
    intro rest h
    exact hc (List.cons.inj h).1
  have hne' : ∀ d w, d ≠ ']' → nameEnd? (':' :: d :: w) = none := by
    intro d w hd
    rw [nameEnd?]
    intro rest h
    exact hd (List.cons.inj (List.cons.inj h).2).1
  rcases s with - | ⟨c, s⟩
  · rfl
  by_cases hc : c = ':'
  case neg => rw [List.cons_append, hne c _ hc, hne c _ hc, Option.map_none]
  case pos =>
    subst hc
    rcases s with - | ⟨d, s⟩
    · rfl
    by_cases hd : d = ']'
    case neg => rw [List.cons_append, List.cons_append, hne' d _ hd, hne' d _ hd, Option.map_none]
    case pos =>
      subst hd
      rfl

/-- A bracket behind the text makes no class name of it. -/
theorem className?_append (negated : Bool) (s : List Char) :
    className? negated (s ++ [')'])
      = (className? negated s).map fun (i, rest) => (i, rest ++ [')']) := by
  rw [className?, className?]
  by_cases hs : s.dropWhile (· ≠ ':') = []
  case neg =>
    obtain ⟨htake, hdrop⟩ := run_append_of_ne_nil hs [')']
    rw [htake, hdrop, nameEnd?_append]
    cases nameEnd? (s.dropWhile (· ≠ ':')) with
    | none => rfl
    | some rest => cases Class.named.lookup (.ofList (s.takeWhile (· ≠ ':'))) <;> rfl
  case pos =>
    have hbracket : ')' ∈ (s ++ [')']).takeWhile (· ≠ ':') := by
      rw [List.takeWhile_append_of_pos (List.dropWhile_eq_nil_iff.mp hs)]
      exact List.mem_append_right _ (by simp)
    rw [lookup_named_eq_none hbracket, hs]
    cases nameEnd? ((s ++ [')']).dropWhile (· ≠ ':')) <;> rfl

theorem namedClass?_append (s : List Char) :
    namedClass? (s ++ [')'])
      = (namedClass? s).map fun (i, rest) => (i, rest ++ [')']) := by
  have hne : ∀ c w, c ≠ ':' → namedClass? (c :: w) = none := by
    intro c w hc
    rw [namedClass?]
    · intro s h
      exact hc (List.cons.inj h).1
    · intro s h
      exact hc (List.cons.inj h).1
  have hne' : ∀ w : List Char, w.head? ≠ some '^' → namedClass? (':' :: w) = className? false w := by
    intro w hw
    rw [namedClass?]
    rintro s rfl
    exact hw rfl
  rcases s with - | ⟨c, s⟩
  · rfl
  by_cases hc : c = ':'
  case neg => rw [List.cons_append, hne c _ hc, hne c _ hc, Option.map_none]
  case pos =>
    subst hc
    by_cases hs : s.head? = some '^'
    case pos =>
      obtain ⟨s, rfl⟩ := List.head?_eq_some_iff.mp hs
      exact className?_append true s
    case neg =>
      have hmore := head?_append_closing_ne hs (by decide)
      rw [List.cons_append, hne' s hs, hne' _ hmore, className?_append]

theorem keeps_innerClass : Keeps [')'] (innerClass v) := by
  intro s p h
  have hnamed := namedClass?_append s
  rw [innerClass] at h ⊢
  split at h
  case h_1 i rest hs =>
    cases h
    rw [hs] at hnamed
    split
    case h_1 hmore =>
      cases hmore.symm.trans hnamed
      rfl
    case h_2 hmore => cases hmore.symm.trans hnamed
  case h_2 hs =>
    rw [hs] at hnamed
    split
    case h_1 hmore => cases hmore.symm.trans hnamed
    case h_2 => exact keeps_classOpening h

theorem keeps_classPiece (c : Char) : Keeps [')'] (classPiece v c) := by
  unfold classPiece
  split
  case h_1 => exact keeps_innerClass
  case h_2 => exact .pure _
  case h_3 => exact keeps_operatorOrItem c

/-! ## Repetition -/

theorem digits_of_skip {c : Char} {w : List Char} (hc : c.isDigit = true) (h : skip v s = w) :
    digits v (c :: s) = do
      let q ← digits v w
      return ⟨c :: q.value, q.rest,
        q.suffix.trans ((h ▸ skip_suffix v s).trans (List.suffix_cons c s))⟩ := by
  subst h
  rw [digits, if_pos hc]

theorem keeps_digits : Keeps t (digits v) := by
  intro s p h
  fun_induction digits v s with
  | case1 => cases h
  | case2 c s hc ih =>
    obtain ⟨q, hq, h⟩ := bind_eq_ok_iff.mp h
    cases h
    have hnil : ∀ (w : List Char) (q : Reading (List Char) w), digits v w = .ok q → w ≠ [] := by
      rintro _ q hq rfl
      rw [digits] at hq
      cases hq
    show digits v (c :: (s ++ t)) = _
    rw [digits_of_skip hc (skip_append (hnil _ q hq) t), ih hq]
    rfl
  | case3 c s hc =>
    cases h
    show digits v (c :: (s ++ t)) = _
    rw [digits, if_neg hc]
    rfl

theorem keeps_whiteSpace : Keeps t whiteSpace := by
  intro s p h
  rw [whiteSpace] at h ⊢
  split at h
  case isTrue => cases h
  case isFalse hs =>
    cases h
    have hne : s.dropWhile Text.isWhiteSpace ++ t ≠ [] := List.append_ne_nil_of_left_ne_nil hs t
    simp only [(run_append_of_ne_nil hs t).2, if_neg hne]
    rfl

theorem keeps_count : Keeps t (count v) :=
  .bind keeps_whiteSpace fun _ => .bind keeps_digits fun _ => .bind keeps_whiteSpace fun _ =>
    .ite .fail (.pure _)

theorem keeps_bounds : Keeps t (bounds v) := by
  refine .bind .blanks fun _ => .bind keeps_count fun lo => .bind .next fun c =>
    .ite (.pure _) (.ite ?more .fail)
  case more =>
    exact .bind .blanks fun _ => .bind .peek fun _ => .ite (.bind .next fun _ => .pure _)
      (.bind keeps_count fun _ => .bind .next fun _ => .ite (.pure _) .fail)

/-- A closing bracket does not make anything of what comes before it. -/
theorem head?_skip_append_closing (v : Bool) (s : List Char) :
    (skip v (s ++ [')'])).head? = some '?' ↔ (skip v s).head? = some '?' := by
  by_cases hs : skip v s = []
  case pos =>
    rw [skip_append_closing hs, hs]
    split <;> simp
  case neg =>
    obtain ⟨c, r, hr⟩ := List.exists_cons_of_ne_nil hs
    rw [skip_append hs, hr]
    rfl

theorem mark_of_skip {lo : Nat} {hi : Option Nat} {r : List Char} (h : skip v s = '?' :: r) :
    mark v lo hi s = .ok ⟨.times lo hi true, r, suffix_of_skip h⟩ := by
  rw [mark]
  split
  case h_1 hr =>
    cases h.symm.trans hr
    rfl
  case h_2 hne => exact absurd h (hne r)

theorem mark_of_ne {lo : Nat} {hi : Option Nat} (h : (skip v s).head? ≠ some '?') :
    mark v lo hi s = .ok ⟨.times lo hi false, s, List.suffix_refl s⟩ := by
  rw [mark]
  split
  case h_1 hs =>
    rw [hs] at h
    exact absurd rfl h
  case h_2 => rfl

theorem keeps_mark (lo : Nat) (hi : Option Nat) : Keeps [')'] (mark v lo hi) := by
  intro s p h
  by_cases hs : (skip v s).head? = some '?'
  case neg =>
    rw [mark_of_ne hs] at h
    cases h
    rw [mark_of_ne (mt (head?_skip_append_closing v s).mp hs)]
    rfl
  case pos =>
    obtain ⟨r, hr⟩ := List.head?_eq_some_iff.mp hs
    rw [mark_of_skip hr] at h
    cases h
    have hskip := skip_append_of_cons hr [')']
    rw [mark_of_skip hskip]
    rfl

/-! ## Groups -/

theorem keeps_groupName : Keeps t groupName := by
  intro s p h
  rw [groupName] at h
  split at h
  case h_1 => cases h
  case h_2 c rest hs =>
    obtain ⟨htake, hdrop⟩ := run_append_of_ne_nil (hs ▸ List.cons_ne_nil c rest) t
    rw [hs, List.cons_append] at hdrop
    rw [groupName]
    split
    case h_1 hmore => cases hdrop.symm.trans hmore
    case h_2 hmore =>
      cases hdrop.symm.trans hmore
      split at h
      case isFalse => cases h
      case isTrue hname =>
        cases h
        simp only [htake, if_pos hname]
        rfl

theorem keeps_flagLetters : Keeps t flagLetters := by
  intro s p h
  rw [flagLetters] at h
  split at h
  case h_1 => cases h
  case h_2 c rest hs =>
    obtain ⟨htake, hdrop⟩ := run_append_of_ne_nil (hs ▸ List.cons_ne_nil c rest) t
    rw [hs, List.cons_append] at hdrop
    rw [flagLetters]
    split
    case h_1 hmore => cases hdrop.symm.trans hmore
    case h_2 hmore =>
      cases hdrop.symm.trans hmore
      split at h
      case h_1 => cases h
      case h_2 d hd =>
        split at h
        case isTrue => cases h
        case isFalse hempty =>
          cases h
          simp only [htake, hd, if_neg hempty]
          rfl

theorem keeps_specialGroup : Keeps t specialGroup := by
  intro s p h
  rw [specialGroup.eq_def] at h
  split at h
  case h_1 => cases h
  case h_2 => cases h
  case h_3 => cases h
  case h_4 => cases h
  case h_5 s =>
    obtain ⟨q, hq, rfl⟩ := map_eq_ok_iff.mp h
    show (groupName (s ++ t)).map _ = _
    rw [keeps_groupName hq]
    rfl
  case h_6 s hequals hbang =>
    obtain ⟨q, hq, rfl⟩ := map_eq_ok_iff.mp h
    -- A name is read behind the angle, so there is a character that is neither `=` nor `!`.
    rcases s with - | ⟨c, s⟩
    case nil => cases hq
    have hmore : groupName (c :: (s ++ t)) = .ok (q.extend t) := keeps_groupName hq
    show specialGroup ('<' :: c :: (s ++ t)) = _
    rw [specialGroup, hmore]
    · rfl
    · rintro _ ⟨⟩
      exact hequals s rfl
    · rintro _ ⟨⟩
      exact hbang s rfl
  case h_7 hequals hbang _ _ hnamed hname =>
    rcases s with - | ⟨c, s⟩
    case nil => cases h
    have hangle : c ≠ '<' := by
      rintro rfl
      exact hname s rfl
    show specialGroup (c :: (s ++ t)) = _
    rw [specialGroup]
    · exact keeps_flagLetters h
    · rintro _ ⟨⟩
      exact hequals s rfl
    · rintro _ ⟨⟩
      exact hbang s rfl
    · intro _ hs
      exact hangle (List.cons.inj hs).1
    · intro _ hs
      exact hangle (List.cons.inj hs).1
    · intro _ hs
      obtain ⟨rfl, hs⟩ := List.cons.inj hs
      -- A `P` alone would not have been read, so the angle is not the first of `t`.
      rcases s with - | ⟨d, s⟩
      case nil => cases h
      cases hs
      exact hnamed s rfl
    · intro _ hs
      exact hangle (List.cons.inj hs).1

theorem group_of_skip {r : List Char} (h : skip v s = '?' :: r) :
    group v s = (specialGroup r).map (.behind (suffix_of_skip h)) := by
  rw [group]
  split
  case h_1 hr =>
    cases h.symm.trans hr
    rfl
  case h_2 hne => exact absurd h (hne r)

theorem group_of_ne (h : (skip v s).head? ≠ some '?') :
    group v s = .ok ⟨.opening none .none, s, List.suffix_refl s⟩ := by
  rw [group]
  split
  case h_1 hs =>
    rw [hs] at h
    exact absurd rfl h
  case h_2 => rfl

theorem keeps_group : Keeps [')'] (group v) := by
  intro s p h
  by_cases hs : (skip v s).head? = some '?'
  case neg =>
    rw [group_of_ne hs] at h
    cases h
    rw [group_of_ne (mt (head?_skip_append_closing v s).mp hs)]
    rfl
  case pos =>
    obtain ⟨r, hr⟩ := List.head?_eq_some_iff.mp hs
    rw [group_of_skip hr] at h
    obtain ⟨q, hq, rfl⟩ := map_eq_ok_iff.mp h
    have hskip := skip_append_of_cons hr [')']
    rw [group_of_skip hskip, keeps_specialGroup hq]
    rfl

/-! ## Pieces -/

theorem keeps_piece (m : Mode) (c : Char) : Keeps [')'] (m.piece c) := by
  refine .ite ?_ (keeps_classPiece c)
  unfold piece
  split
  case h_1 => exact keeps_group
  case h_4 | h_5 | h_6 => exact keeps_mark _ _
  case h_7 => exact .bind keeps_bounds fun _ => keeps_mark _ _
  case h_8 => exact keeps_classOpening
  case h_12 => exact .bind keeps_escape fun _ => .pure _
  all_goals exact .pure _

variable {m : Mode}

theorem pieces_of_skip_nil (h : skip m.verbose s = []) :
    pieces m s = if m.depth ≠ 0 then .error .unclosedClass
      else .ok ([], endsInRemark m.verbose s) := by
  rw [pieces]
  split
  case h_1 => rfl
  case h_2 hs => cases h.symm.trans hs

theorem pieces_of_skip_cons {c : Char} {r : List Char} (h : skip m.verbose s = c :: r) :
    pieces m s = do
      let p ← m.piece c r
      let (ps, remark) ← pieces (m.after p.value) p.rest
      return (p.value :: ps, remark) := by
  rw [pieces]
  split
  case h_1 hs => cases h.symm.trans hs
  case h_2 hs =>
    cases h.symm.trans hs
    rfl

theorem pieces_nil (h : m.depth = 0) : pieces m [] = .ok ([], false) := by
  have hskip : skip m.verbose [] = [] ∧ endsInRemark m.verbose [] = false := by
    cases m.verbose <;> exact ⟨rfl, rfl⟩
  rw [pieces_of_skip_nil hskip.1, if_neg (not_not.mpr h), hskip.2]

theorem pieces_closing (h : m.depth = 0) : pieces m [')'] = .ok ([.closing], false) := by
  have hpiece : m.piece ')' = (pure .closing : Reader Piece) := if_pos h
  have hrest : pieces (m.after .closing) [] = .ok ([], false) := pieces_nil h
  rw [pieces_of_skip_cons (skip_closing m.verbose), hpiece]
  show pieces (m.after .closing) [] >>= _ = _
  rw [hrest]
  rfl

/-- Behind a text that does not end in a comment, a closing bracket is one piece more. -/
theorem pieces_append_closing {ps : List Piece} {remark : Bool}
    (h : pieces m s = .ok (ps, remark)) :
    pieces m (s ++ [')']) = .ok (if remark then ps else ps ++ [.closing], remark) := by
  -- Only where the text ends is the bracket seen: as the next piece, or not at all.
  fun_induction pieces m s generalizing ps with
  | case1 m s hs hdepth => cases h
  | case2 m s hs hdepth =>
    cases h
    have hskip := skip_append_closing hs
    cases hremark : endsInRemark m.verbose s with
    | true =>
      rw [hremark] at hskip
      rw [pieces_of_skip_nil hskip, if_neg hdepth, endsInRemark_append_closing hs, hremark]
      rfl
    | false =>
      have hend := pieces_closing (not_not.mp hdepth)
      rw [hremark] at hskip
      rw [pieces_of_skip_cons hskip, ← pieces_of_skip_cons (skip_closing m.verbose), hend]
      rfl
  | case3 m s c r hs ih =>
    obtain ⟨p, hp, h⟩ := bind_eq_ok_iff.mp h
    obtain ⟨⟨qs, remark⟩, hq, h⟩ := bind_eq_ok_iff.mp h
    cases h
    have hskip := skip_append_of_cons hs [')']
    have hrest : pieces (m.after p.value) (p.rest ++ [')']) = _ := ih p hq
    rw [pieces_of_skip_cons hskip, keeps_piece m c hp]
    show pieces (m.after p.value) (p.rest ++ [')']) >>= _ = _
    rw [hrest]
    cases remark <;> rfl

/-! ## Groups that are not verbose -/

/-- The same mode, with more groups around it that are not verbose. -/
def Mode.within (m : Mode) (k : Nat) : Mode :=
  { m with outer := m.outer ++ List.replicate k false }

theorem Mode.exists_after_within (m : Mode) (k : Nat) (p : Piece) :
    ∃ j, (m.within k).after p = (m.after p).within j := by
  obtain ⟨verbose, outer, depth⟩ := m
  cases p with
  | closing =>
    cases outer with
    | nil =>
      refine ⟨k - 1, ?_⟩
      cases k <;> rfl
    | cons b outer => exact ⟨k, rfl⟩
  | _ => exact ⟨k, rfl⟩

/-- A pattern is not verbose where it begins, and so it makes no difference to close more
groups than have been opened. -/
theorem pieces_within (m : Mode) (k : Nat) (s : List Char) :
    pieces (m.within k) s = pieces m s := by
  fun_induction pieces m s generalizing k with
  | case1 m s hs hdepth =>
    have hskip : skip (m.within k).verbose s = [] := hs
    rw [pieces_of_skip_nil hskip]
    exact if_pos hdepth
  | case2 m s hs hdepth =>
    have hskip : skip (m.within k).verbose s = [] := hs
    rw [pieces_of_skip_nil hskip]
    exact if_neg hdepth
  | case3 m s c r hs ih =>
    have hskip : skip (m.within k).verbose s = c :: r := hs
    rw [pieces_of_skip_cons hskip]
    show m.piece c r >>= _ = _
    cases m.piece c r with
    | error e => rfl
    | ok p =>
      obtain ⟨j, hj⟩ := m.exists_after_within k p.value
      show pieces ((m.within k).after p.value) p.rest >>= _ = pieces (m.after p.value) p.rest >>= _
      rw [hj, ih p j]

end SourceTokens.Regex

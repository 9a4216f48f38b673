/-
# `SourceTokens.Proofs.Regex.Shift` — an expression that looks only ahead

A match is preferred by what stands ahead of it and by what its assertions see.  An
expression none of whose assertions looks back finds the same ends wherever its
text stands: with `u` put before the text, every end is shifted over `u`,

    r.ends (p.shift u) = (r.ends p).map (·.shift u)

The induction follows `ends`; each of its building blocks commutes with the shift
when its steps do.
-/
import SourceTokens.Regex.Ends

namespace SourceTokens.Regex

/-! ## Which expressions look only ahead -/

/-- Whether the assertion is about what is ahead and nothing else. -/
def Assertion.looksAhead : Assertion → Bool
  | .textEnd => true
  | .lineEnd crlf => !crlf
  | .word b _ => b = .finishHalf
  | _ => false

/-- Whether no assertion of the expression looks back. -/
def looksAhead : Regex → Bool
  | empty => true
  | one _ => true
  | assert a => a.looksAhead
  | seq r s => r.looksAhead && s.looksAhead
  | alt r s => r.looksAhead && s.looksAhead
  | times r _ _ _ => r.looksAhead

/-! ## Shifting places -/

/-- The place in the text with `u` before it, nearest character first. -/
def Point.shift (u : List Char) (p : Point) : Point :=
  ⟨p.past ++ u, p.ahead, p.index + u.length, by simp [p.index_eq]⟩

variable (u : List Char)

@[simp] theorem Point.ahead_shift (p : Point) : (p.shift u).ahead = p.ahead := rfl

@[simp] theorem Point.index_shift (p : Point) :
    (p.shift u).index = p.index + u.length := rfl

theorem Point.read_shift (p : Point) (c : Char) (rest : List Char) :
    (p.shift u).read c rest = (p.read c rest).shift u := by
  simp only [read, shift, mk.injEq, List.cons_append, true_and]
  omega

/-- Every place is the start of what is ahead of it, shifted. -/
theorem Point.eq_shift_start (p : Point) : p = (start p.ahead).shift p.past := by
  obtain ⟨past, ahead, i, hi⟩ := p
  simp [start, shift, hi]

theorem Point.next?_shift (p : Point) :
    (p.shift u).next? = p.next?.map (·.shift u) := by
  obtain ⟨past, ahead, i, hi⟩ := p
  cases ahead with
  | nil => rfl
  | cons c rest => exact congrArg some (read_shift u _ c rest)

/-! ## Shifting the places found -/

def Found.shift (f : Found) : Found :=
  ⟨f.latestFirst.map (·.shift u), f.seen <<< u.length⟩

theorem Found.empty_shift : Found.empty.shift u = .empty := by
  simp [shift, empty]

theorem Found.has_shift (f : Found) (p : Point) :
    (f.shift u).has (p.shift u) = f.has p := by
  simp [has, shift, Nat.testBit_shiftLeft]

theorem Found.insert_shift (f : Found) (p : Point) :
    (f.shift u).insert (p.shift u) = (f.insert p).shift u := by
  unfold insert
  rw [has_shift]
  split
  case isTrue => rfl
  case isFalse =>
    simp only [shift, Point.index_shift, List.map_cons, mk.injEq, true_and]
    rw [Nat.shiftLeft_add, Nat.shiftLeft_or_distrib]

theorem Found.toList_shift (f : Found) :
    (f.shift u).toList = f.toList.map (·.shift u) := by
  simp [toList, shift]

/-- A walk over places commutes with the shift when its steps do. -/
theorem Found.foldl_shift {g g' : Found → Point → Found} {ps : List Point}
    (hg : ∀ f, ∀ p ∈ ps, g' (f.shift u) (p.shift u) = (g f p).shift u) (f : Found) :
    (ps.map (·.shift u)).foldl g' (f.shift u) = (ps.foldl g f).shift u := by
  induction ps generalizing f with
  | nil => rfl
  | cons p ps ih =>
    rw [List.map_cons, List.foldl_cons, hg f p (.head _)]
    exact ih (fun f q hq => hg f q (.tail _ hq)) _

theorem distinct_shift (ps : List Point) :
    distinct (ps.map (·.shift u)) = (distinct ps).map (·.shift u) := by
  match ps with
  | [] => rfl
  | [_] => rfl
  | p :: q :: ps =>
    show ((List.map (·.shift u) (p :: q :: ps)).foldl Found.insert .empty).toList = _
    rw [← Found.empty_shift u, Found.foldl_shift u fun f p _ => f.insert_shift u p,
      Found.toList_shift]
    rfl

/-! ## Repetition -/

section Repetition

variable {u} {step : Point → List Point} {lazy : Bool}

/-- A step that commutes with the shift over `u`. -/
def Shifts (u : List Char) (step : Point → List Point) : Prop :=
  ∀ p, step (p.shift u) = (step p).map (·.shift u)

theorem Shifts.flatMap (hstep : Shifts u step) (ps : List Point) :
    (ps.map (·.shift u)).flatMap step = (ps.flatMap step).map (·.shift u) := by
  rw [List.flatMap_map, List.map_flatMap]
  exact congrArg (List.flatMap · ps) (funext hstep)

theorem Shifts.distinct_flatMap (hstep : Shifts u step) (ps : List Point) :
    distinct ((ps.map (·.shift u)).flatMap step)
      = (distinct (ps.flatMap step)).map (·.shift u) := by
  rw [hstep.flatMap, distinct_shift]

theorem Shifts.explore (hstep : Shifts u step) (n : Nat) (f : Found) (p : Point) :
    explore step lazy n (f.shift u) (p.shift u) = (explore step lazy n f p).shift u := by
  induction n generalizing f p with
  | zero => exact f.insert_shift u p
  | succ n ih =>
    have hfilter : ((step p).map (·.shift u)).filter
          (fun q => (p.shift u).index < q.index)
        = ((step p).filter fun q => p.index < q.index).map (·.shift u) := by
      rw [List.filter_map]
      congr 1
      exact List.filter_congr fun q _ => by simp
    have hfold := Found.foldl_shift u fun f q
      (_ : q ∈ (step p).filter fun q => p.index < q.index) => ih f q
    unfold Regex.explore
    rw [Found.has_shift, hstep p]
    cases f.has p with
    | true => rfl
    | false =>
      cases lazy with
      | true =>
        simp only [Bool.false_eq_true, if_false, if_true, hfilter, Found.insert_shift]
        exact hfold _
      | false =>
        simp only [Bool.false_eq_true, if_false, hfilter, hfold, Found.insert_shift]

theorem Shifts.rounds (hstep : Shifts u step) : Shifts u (rounds step lazy) := by
  intro p
  let round (p : Point) (f : Found) (q : Point) : Found :=
    if q.index = p.index then f.insert q
    else Regex.explore step lazy q.ahead.length f q
  have hround : ∀ f, ∀ q ∈ step p,
      round (p.shift u) (f.shift u) (q.shift u) = (round p f q).shift u := by
    intro f q _
    simp only [round, Point.index_shift, Nat.add_right_cancel_iff, Point.ahead_shift]
    split
    case isTrue => exact f.insert_shift u q
    case isFalse => exact hstep.explore _ f q
  have hfold := Found.foldl_shift u hround .empty
  rw [Found.empty_shift, ← hstep p] at hfold
  show ((step (p.shift u)).foldl (round (p.shift u)) .empty).toList = _
  rw [hfold, Found.toList_shift]
  rfl

theorem Shifts.exactly (hstep : Shifts u step) (n : Nat) : Shifts u (exactly step n) := by
  intro p
  induction n with
  | zero => rfl
  | succ n ih =>
    unfold Regex.exactly
    rw [ih, hstep.distinct_flatMap]

theorem Shifts.orStay (hstep : Shifts u step) : Shifts u (orStay step lazy) := by
  intro p
  unfold Regex.orStay
  rw [hstep p, ← distinct_shift]
  cases lazy with
  | true => rfl
  | false => simp

theorem Shifts.atMost (hstep : Shifts u step) (n : Nat) :
    Shifts u (atMost step lazy n) := by
  induction n with
  | zero => exact fun _ => rfl
  | succ n ih =>
    have hround : Shifts u fun p => distinct ((step p).flatMap (Regex.atMost step lazy n)) := by
      intro p
      show distinct ((step (p.shift u)).flatMap _) = _
      rw [hstep p, ih.distinct_flatMap]
    exact hround.orStay

theorem Shifts.repeated (hstep : Shifts u step) (lo : Nat) (hi : Option Nat) :
    Shifts u (repeated step lazy lo hi) := by
  intro p
  unfold Regex.repeated
  split
  case h_1 => exact hstep.rounds.orStay p
  case h_2 => rw [hstep.exactly _ p, hstep.rounds.distinct_flatMap]
  case h_3 => rw [hstep.exactly _ p, (hstep.atMost _).distinct_flatMap]

end Repetition

/-! ## Single characters -/

variable {u}

theorem Class.shifts_ends (a : Class) : Shifts u a.ends := by
  intro p
  obtain ⟨past, ahead, i, hi⟩ := p
  cases ahead with
  | nil => rfl
  | cons c rest =>
    show (if a.contains c then [_] else []) = List.map _ (if a.contains c then [_] else [])
    cases a.contains c with
    | true => exact congrArg ([·]) (Point.read_shift u _ c rest)
    | false => rfl

theorem Class.run_of_nil {a : Class} {p : Point} (h : p.ahead = [])
    (nearer : List Point) : a.run p nearer = p :: nearer := by
  rw [Class.run.eq_def]
  split
  case h_1 => rfl
  case h_2 h' => cases h.symm.trans h'

theorem Class.run_of_cons {a : Class} {p : Point} {c : Char} {rest : List Char}
    (h : p.ahead = c :: rest) (nearer : List Point) :
    a.run p nearer = if a.contains c then a.run (p.read c rest) (p :: nearer)
      else p :: nearer := by
  rw [Class.run.eq_def]
  split
  case h_1 h' => cases h.symm.trans h'
  case h_2 h' => cases h.symm.trans h'; rfl

theorem Class.run_shift (a : Class) (p : Point) (nearer : List Point) :
    a.run (p.shift u) (nearer.map (·.shift u)) = (a.run p nearer).map (·.shift u) := by
  fun_induction Class.run a p nearer with
  | case1 p nearer hp => exact Class.run_of_nil (p := p.shift u) hp _
  | case2 p nearer c rest hp hc ih =>
    rw [Class.run_of_cons (p := p.shift u) hp, if_pos hc, Point.read_shift, ← ih]
    rfl
  | case3 p nearer c rest hp hc =>
    rw [Class.run_of_cons (p := p.shift u) hp, if_neg hc]
    rfl

theorem Class.shifts_repeated (a : Class) (lazy : Bool) (lo : Nat) (hi : Option Nat) :
    Shifts u (a.repeated lazy lo hi) := by
  intro p
  have hrun := a.run_shift (u := u) p []
  unfold Class.repeated
  rw [List.map_nil] at hrun
  rw [hrun, ← List.map_reverse, ← List.map_drop]
  cases hi <;> cases lazy <;> simp

/-! ## Ends -/

theorem Assertion.holds_shift {a : Assertion} (h : a.looksAhead = true) (p : Point) :
    a.holds (p.shift u) = a.holds p := by
  cases a with
  | textStart | lineStart => cases h
  | textEnd => rfl
  | lineEnd crlf =>
    cases crlf with
    | true => cases h
    | false => rfl
  | word b ascii =>
    obtain rfl : b = .finishHalf := of_decide_eq_true h
    rfl

theorem shifts_ends {r : Regex} (hr : r.looksAhead = true) : Shifts u r.ends := by
  induction r with
  | empty => exact fun _ => rfl
  | one a => exact a.shifts_ends
  | assert a =>
    intro p
    show (if a.holds (p.shift u) then [_] else []) = List.map _ (if a.holds p then [_] else [])
    rw [Assertion.holds_shift hr]
    cases a.holds p <;> rfl
  | seq r s ihr ihs =>
    obtain ⟨hr, hs⟩ := Bool.and_eq_true_iff.mp hr
    intro p
    show distinct (List.flatMap s.ends (r.ends (p.shift u))) = _
    rw [ihr hr p]
    exact (ihs hs).distinct_flatMap _
  | alt r s ihr ihs =>
    obtain ⟨hr, hs⟩ := Bool.and_eq_true_iff.mp hr
    intro p
    show distinct (r.ends (p.shift u) ++ s.ends (p.shift u)) = _
    rw [ihr hr p, ihs hs p, ← List.map_append, distinct_shift]
    rfl
  | times r lo hi lazy ih =>
    intro p
    unfold ends
    split
    case h_1 a _ => exact a.shifts_repeated lazy lo hi p
    case h_2 => exact (ih hr).repeated lo hi p

theorem matchAt_shift {r : Regex} (hr : r.looksAhead = true) (p : Point) :
    r.matchAt (p.shift u) = (r.matchAt p).map (·.shift u) := by
  unfold matchAt
  rw [shifts_ends hr p, List.head?_map]

theorem find_shift {r : Regex} (hr : r.looksAhead = true) (p : Point) :
    r.find (p.shift u) = (r.find p).map (·.shift u) := by
  fun_induction find r p with
  | case1 p q hq => rw [find.eq_def, matchAt_shift hr, hq]; rfl
  | case2 p hp q hq ih =>
    rw [find.eq_def, matchAt_shift hr, hp]
    have hnext : (p.shift u).next? = some (q.shift u) := by
      rw [Point.next?_shift, hq]; rfl
    simp only [Option.map_none]
    split
    case h_1 q' h => cases hnext.symm.trans h; exact ih
    case h_2 h => cases hnext.symm.trans h
  | case3 p hp hq =>
    rw [find.eq_def, matchAt_shift hr, hp]
    have hnext : (p.shift u).next? = none := by rw [Point.next?_shift, hq]; rfl
    simp only [Option.map_none]
    split
    case h_1 q' h => cases hnext.symm.trans h
    case h_2 => rfl

end SourceTokens.Regex

/-
# `SourceTokens.Proofs.Cursor` — where a cursor goes

Every operation of a scanner moves the cursor to some end `t` of the text ahead, and
the place it moves to is determined by that end: `s.upTo t`, with `s.before t` the
characters passed over.  So an operation is described by what it leaves:

    s.scan r = (r.matchRest? s.rest).map fun t => (s.before t, s.upTo t)

and moving twice is moving once (`upTo_upTo`).  Where only the text passed over matters,
`s.Moves w t` says that a cursor went over `w`, and each operation has a lemma for it.
-/
import SourceTokens.Proofs.Regex.First
import SourceTokens.Scanner

namespace SourceTokens.Scanner

variable {s : Scanner} {r : Regex} {t u : List Char}

/-- The characters ahead that come before the end `t`. -/
def before (s : Scanner) (t : List Char) : List Char :=
  s.rest.take (s.rest.length - t.length)

/-- The cursor moved to the end `t` of the text ahead. -/
def upTo (s : Scanner) (t : List Char) : Scanner := ⟨(s.before t).reverse ++ s.passed, t⟩

@[simp] theorem rest_upTo (s : Scanner) (t : List Char) : (s.upTo t).rest = t := rfl

theorem before_of_eq {w : List Char} (h : s.rest = w ++ t) : s.before t = w := by
  rw [before, h, List.length_append, Nat.add_sub_cancel, List.take_left]

theorem before_append (h : t <:+ s.rest) : s.before t ++ t = s.rest := by
  obtain ⟨w, hw⟩ := h
  rw [before_of_eq hw.symm, hw]

theorem before_self (s : Scanner) : s.before s.rest = [] :=
  before_of_eq (List.nil_append _).symm

theorem upTo_self (s : Scanner) : s.upTo s.rest = s := by
  rw [upTo, before_self]
  rfl

theorem upTo_upTo (ht : t <:+ s.rest) (hu : u <:+ t) : (s.upTo t).upTo u = s.upTo u := by
  obtain ⟨v, hv⟩ := hu
  obtain ⟨w, hw⟩ := ht
  have hwhole : s.rest = (w ++ v) ++ u := by rw [List.append_assoc, hv, hw]
  rw [upTo, upTo, upTo, before_of_eq (s := ⟨_, t⟩) hv.symm, before_of_eq hw.symm,
    before_of_eq hwhole, List.reverse_append, List.append_assoc]

/-- The text is the same from every place in it. -/
theorem text_upTo (h : t <:+ s.rest) : (s.upTo t).text = s.text := by
  rw [text, text, upTo, List.reverse_append, List.reverse_reverse, List.append_assoc,
    before_append h]

/-! ## Offsets -/

theorem octets_append (x y : List Char) : octets (x ++ y) = octets x + octets y := by
  induction x with
  | nil => exact (Nat.zero_add _).symm
  | cons c x ih =>
    show c.utf8Size + octets (x ++ y) = c.utf8Size + octets x + octets y
    rw [ih, Nat.add_assoc]

theorem octets_reverse (x : List Char) : octets x.reverse = octets x := by
  induction x with
  | nil => rfl
  | cons c x ih =>
    rw [List.reverse_cons, octets_append, ih, Nat.add_comm]
    rfl

/-! ## Moving over some of the text -/

/-- `s.Moves w t`: the cursor is moved over `w`. -/
structure Moves (s : Scanner) (w : List Char) (t : Scanner) : Prop where
  passed : t.passed = w.reverse ++ s.passed
  rest : s.rest = w ++ t.rest

namespace Moves

variable {s t : Scanner} {w : List Char}

theorem refl (s : Scanner) : s.Moves [] s := ⟨rfl, rfl⟩

theorem eq_of_nil (h : s.Moves [] t) : t = s := by
  cases s
  cases t
  obtain ⟨hpassed, hrest⟩ := h
  cases hpassed
  cases hrest
  rfl

theorem text_eq (h : s.Moves w t) : t.text = s.text := by
  rw [text, text, h.passed, h.rest, List.reverse_append, List.reverse_reverse,
    List.append_assoc]

theorem pos_le (h : s.Moves w t) : s.pos ≤ t.pos := by
  rw [pos, pos, h.passed, octets_append]
  exact Nat.le_add_left _ _

theorem of_advance {p : Regex.Point} (h : ∃ u, (Regex.Point.start s.rest).Reaches u p)
    (hadvance : s.advance p = (w, t)) : s.Moves w t := by
  obtain ⟨u, hahead, hpast⟩ := h
  have hpassed : p.passed = u := by
    rw [Regex.Point.passed, hpast]
    show (u.reverse ++ []).reverse = u
    rw [List.append_nil, List.reverse_reverse]
  cases hadvance
  rw [hpassed]
  refine ⟨?_, hahead⟩
  show p.past ++ s.passed = u.reverse ++ s.passed
  rw [hpast]
  exact congrArg (· ++ s.passed) (List.append_nil _)

theorem of_scan (h : s.scan r = some (w, t)) : s.Moves w t := by
  obtain ⟨_, h⟩ := Option.ite_none_left_eq_some.mp h
  obtain ⟨p, hp, hadvance⟩ := Option.map_eq_some_iff.mp h
  exact of_advance (Regex.matchAt_reaches hp) hadvance

theorem of_scanUntil (h : s.scanUntil r = some (w, t)) : s.Moves w t := by
  obtain ⟨_, h⟩ := Option.ite_none_left_eq_some.mp h
  obtain ⟨p, hp, hadvance⟩ := Option.map_eq_some_iff.mp h
  exact of_advance (Regex.find_reaches hp) hadvance

theorem of_getChar {c : Char} (h : s.getChar = some (c, t)) : s.Moves [c] t := by
  obtain ⟨passed, rest⟩ := s
  cases rest with
  | nil => cases h
  | cons d rest =>
    cases h
    exact ⟨rfl, rfl⟩

theorem terminate (s : Scanner) : s.Moves s.rest s.terminate :=
  ⟨rfl, (List.append_nil _).symm⟩

end Moves

/-! ## The operations by what they leave -/

theorem advance_eq {p : Regex.Point} {w : List Char}
    (h : (Regex.Point.start s.rest).Reaches w p) :
    s.advance p = (s.before p.ahead, s.upTo p.ahead) := by
  have hpast : p.past = w.reverse := by rw [h.2]; exact List.append_nil _
  rw [advance, Regex.Point.passed, hpast, upTo, before_of_eq h.1, List.reverse_reverse]

theorem map_advance {o : Option Regex.Point}
    (h : ∀ p, o = some p → ∃ w, (Regex.Point.start s.rest).Reaches w p) :
    o.map s.advance = (o.map Regex.Point.ahead).map fun t => (s.before t, s.upTo t) := by
  cases o with
  | none => rfl
  | some p =>
    obtain ⟨w, hw⟩ := h p rfl
    exact congrArg some (advance_eq hw)

/-- An expression that is not nullable matches nothing at the end of a text. -/
theorem matchRest?_nil (hr : r.nullable = false) : r.matchRest? [] = none := by
  rw [← Regex.map_ahead_matchAt, Regex.matchAt]
  cases h : r.ends (.start []) with
  | nil => rfl
  | cons p ps =>
    have hp : p ∈ r.ends (.start []) := h ▸ List.mem_cons_self
    exact absurd (Regex.ahead_lt_of_mem_ends hr hp) (Nat.not_lt_zero _)

/-- A search at the end of a text finds nothing that is left. -/
theorem eq_nil_of_findRest?_nil (h : r.findRest? [] = some t) : t = [] :=
  List.suffix_nil.mp (Regex.suffix_of_findRest? h)

theorem atEnd_of_eq (hs : s.rest = []) : s.atEnd = true := by
  rw [atEnd, hs]
  rfl

theorem atEnd_of_ne (hs : s.rest ≠ []) : s.atEnd = false := by
  rw [atEnd, List.isEmpty_eq_false_iff]
  exact hs

theorem scan_of_ne_nil (hs : s.rest ≠ []) (r : Regex) :
    s.scan r = (r.matchRest? s.rest).map fun t => (s.before t, s.upTo t) := by
  rw [scan, atEnd_of_ne hs, ← Regex.map_ahead_matchAt]
  exact map_advance fun p hp => Regex.matchAt_reaches hp

theorem scan_eq (hr : r.nullable = false) (s : Scanner) :
    s.scan r = (r.matchRest? s.rest).map fun t => (s.before t, s.upTo t) := by
  by_cases hs : s.rest = []
  · rw [scan, atEnd_of_eq hs, hs, matchRest?_nil hr]
    rfl
  · exact scan_of_ne_nil hs r

theorem scanUntil_of_ne_nil (hs : s.rest ≠ []) (r : Regex) :
    s.scanUntil r = (r.findRest? s.rest).map fun t => (s.before t, s.upTo t) := by
  rw [scanUntil, atEnd_of_ne hs, Regex.findRest?]
  exact map_advance fun p hp => Regex.find_reaches hp

theorem map_snd_scanUntil (hs : s.rest ≠ []) (r : Regex) :
    (s.scanUntil r).map (·.2) = (r.findRest? s.rest).map s.upTo := by
  rw [scanUntil_of_ne_nil hs, Option.map_map]
  rfl

theorem passUntil_eq (s : Scanner) (r : Regex) :
    s.passUntil r = s.upTo ((r.findRest? s.rest).getD s.rest) := by
  by_cases hs : s.rest = []
  · have hleft : (r.findRest? s.rest).getD s.rest = s.rest := by
      rw [hs]
      cases h : r.findRest? [] with
      | none => rfl
      | some t => exact eq_nil_of_findRest?_nil h
    rw [hleft, upTo_self, passUntil, scanUntil, atEnd_of_eq hs]
    rfl
  · rw [passUntil, map_snd_scanUntil hs]
    cases r.findRest? s.rest with
    | none => exact (upTo_self s).symm
    | some t => rfl

theorem terminate_eq (s : Scanner) : s.terminate = s.upTo [] := by
  rw [terminate, upTo, before_of_eq (List.append_nil s.rest).symm]

theorem passUntilOrEnd_eq (s : Scanner) (r : Regex) :
    s.passUntilOrEnd r = s.upTo ((r.findRest? s.rest).getD []) := by
  by_cases hs : s.rest = []
  · have hleft : (r.findRest? s.rest).getD [] = [] := by
      rw [hs]
      cases h : r.findRest? [] with
      | none => rfl
      | some t => exact eq_nil_of_findRest?_nil h
    rw [hleft, ← terminate_eq, passUntilOrEnd, scanUntil, atEnd_of_eq hs]
    rfl
  · rw [passUntilOrEnd, map_snd_scanUntil hs, terminate_eq]
    cases r.findRest? s.rest <;> rfl

theorem passChar_eq (s : Scanner) : s.passChar = s.upTo s.rest.tail := by
  obtain ⟨passed, rest⟩ := s
  cases rest with
  | nil => exact (upTo_self ⟨passed, []⟩).symm
  | cons c cs =>
    show _ = upTo ⟨passed, c :: cs⟩ cs
    rw [upTo, before_of_eq (w := [c]) rfl]
    rfl

/-- One character further on, the ends ahead are still where they were. -/
theorem upTo_passed_cons {passed rest : List Char} (c : Char) (h : t <:+ rest) :
    upTo ⟨c :: passed, rest⟩ t = upTo ⟨passed, c :: rest⟩ t := by
  have hnext : (⟨c :: passed, rest⟩ : Scanner) = upTo ⟨passed, c :: rest⟩ rest :=
    passChar_eq ⟨passed, c :: rest⟩
  rw [hnext, upTo_upTo (List.suffix_cons c rest) h]

/-- A match is read off the text ahead. -/
theorem rest_of_scan {w : List Char} {v : Scanner} (h : s.scan r = some (w, v)) :
    s.rest = w ++ v.rest :=
  (Moves.of_scan h).rest

theorem rest_pass_suffix (s : Scanner) (r : Regex) : (s.pass r).rest <:+ s.rest := by
  rw [pass]
  cases h : s.scan r with
  | none => exact List.suffix_rfl
  | some a => exact ⟨a.1, (rest_of_scan h).symm⟩

theorem rest_pass (hr : r.nullable = false) (s : Scanner) :
    (s.pass r).rest = (r.matchRest? s.rest).getD s.rest := by
  rw [pass, scan_eq hr]
  cases r.matchRest? s.rest with
  | none => rfl
  | some t => rfl

/-! ## Offsets that are known -/

theorem eq_nil_of_octets_eq_zero {w : List Char} (h : octets w = 0) : w = [] := by
  cases w with
  | nil => rfl
  | cons c w =>
    have hpos := c.utf8Size_pos
    rw [← List.singleton_append, octets_append] at h
    have hone : octets [c] = c.utf8Size := Nat.add_zero _
    omega

theorem eq_of_octets_eq {x y z : List Char} (hx : x <+: z) (hy : y <+: z)
    (h : octets x = octets y) : x = y := by
  rcases List.prefix_or_prefix_of_prefix hx hy with ⟨w, rfl⟩ | ⟨w, rfl⟩
  all_goals
    rw [octets_append] at h
    rw [eq_nil_of_octets_eq_zero (w := w) (by omega), List.append_nil]

/-- The offset of a cursor tells what it has passed of a text that is known. -/
theorem eq_of_pos_eq {x y : List Char} (htext : s.text = x ++ y) (hpos : s.pos = octets x) :
    s.passed.reverse = x ∧ s.rest = y := by
  have hpassed : s.passed.reverse = x := by
    refine eq_of_octets_eq (htext ▸ List.prefix_append _ _) (List.prefix_append _ y) ?_
    rw [octets_reverse, ← hpos, pos]
  rw [text, hpassed] at htext
  exact ⟨hpassed, List.append_cancel_left htext⟩

end SourceTokens.Scanner

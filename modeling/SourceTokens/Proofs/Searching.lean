/-
# `SourceTokens.Proofs.Searching` — matching at the cursor and searching from it

A scanner uses a pattern in two ways.  Matching at the cursor is a search for the wrapped
pattern `^(?:…)`, and it comes to the preferred match of the pattern itself that begins there
(`Pattern.matchesAtCursor`), whatever the pattern is: the anchor holds all of its branches.
The search finds that match too, and it looks further only if there is none.

A search is also what taking one character after the other comes to, with a match tried
after each (`Pattern.searchesBySteps`).  The text ahead is all that a match sees, so this
takes a pattern that does not look back: to an assertion that does, a step is a new start of
the text (`Pattern.not_searchesBySteps_notWordBoundary`).
-/
import SourceTokens.Proofs.Cursor
import SourceTokens.Proofs.Regex.Reading

namespace SourceTokens

/-! ## What a search finds -/

namespace Regex

variable {r : Regex} {p q : Point} {cs t : List Char}

theorem find_of_matchAt (h : r.matchAt p = some q) : r.find p = some q := by
  rw [find.eq_def, h]

theorem Point.LeadsTo.eq_or_next {n : Point} (h : p.LeadsTo q) (hn : p.next? = some n) :
    q = p ∨ n.LeadsTo q := by
  obtain ⟨w, hahead, hpast⟩ := h
  obtain ⟨c, hc, hnpast⟩ := Point.ahead_of_next? hn
  cases w with
  | nil =>
    have hback : q.LeadsTo p := ⟨[], hahead.symm, hpast.symm⟩
    exact .inl (hback.antisymm ⟨[], hahead, hpast⟩).symm
  | cons d w =>
    obtain ⟨rfl, hrest⟩ := List.cons.inj (hc.symm.trans hahead)
    refine .inr ⟨w, hrest, ?_⟩
    rw [hpast, hnpast, List.reverse_cons, List.append_assoc]
    rfl

/-- A search finds the preferred match of the first place that has any. -/
theorem exists_of_find (h : r.find p = some q) :
    ∃ m, p.LeadsTo m ∧ r.matchAt m = some q ∧
      ∀ l, p.LeadsTo l → l.index < m.index → r.matchAt l = none := by
  fun_induction find r p with
  | case1 p q hq =>
    cases h
    refine ⟨p, .refl p, hq, ?_⟩
    intro l hl hlt
    exact absurd hl.index_le (Nat.not_le_of_lt hlt)
  | case2 p hp n hn ih =>
    obtain ⟨m, hm, hmatch, hfirst⟩ := ih h
    obtain ⟨c, hc⟩ := Point.Reaches.of_next? hn
    refine ⟨m, .trans ⟨[c], hc⟩ hm, hmatch, ?_⟩
    intro l hl hlt
    rcases hl.eq_or_next hn with rfl | hl
    · exact hp
    · exact hfirst l hl hlt
  | case3 => cases h

/-- Held to the start, an expression matches there or nowhere. -/
theorem matchAt_anchored (r : Regex) (p : Point) :
    (anchored r).matchAt p = if p.past = [] then r.matchAt p else none := by
  rw [matchAt, anchored, (agree_ends_seq _ r p).head?_eq]
  show ((if p.past.isEmpty then [p] else []).flatMap r.ends).head? = _
  simp only [List.isEmpty_iff]
  split
  case isTrue => rw [List.flatMap_singleton, matchAt]
  case isFalse => rfl

theorem find_anchored (r : Regex) (cs : List Char) :
    (anchored r).find (.start cs) = r.matchAt (.start cs) := by
  cases h : r.matchAt (.start cs) with
  | some q =>
    refine find_of_matchAt ?_
    rw [matchAt_anchored]
    exact h
  | none =>
    cases hfind : (anchored r).find (.start cs) with
    | none => rfl
    | some q =>
      obtain ⟨m, hm, hmatch, _⟩ := exists_of_find hfind
      rw [matchAt_anchored] at hmatch
      obtain ⟨hpast, hmatch⟩ := Option.ite_none_right_eq_some.mp hmatch
      have hindex : m.index = (Point.start cs).index := by
        rw [m.index_eq, hpast]
        rfl
      rw [hm.eq_of_index_eq (.refl _) hindex, h] at hmatch
      cases hmatch

end Regex

/-! ## Matching at the cursor -/

namespace Scanner

/-- What matching `r` at the cursor comes to, for an `r` that the text `source` writes. -/
structure MatchesAtCursor (s : Scanner) (data : Regex.CharacterData) (source : List Char)
    (r : Regex) : Prop where
  /-- It is a search of the text ahead for the wrapped pattern. -/
  wrapped : ∃ a, Regex.ofPattern data (Pattern.wrapped source) = .ok a ∧
    s.scan r = (a.find (.start s.rest)).map s.advance
  /-- It succeeds if `r` matches something that begins at the cursor, be it nothing. -/
  isSome_iff : (s.scan r).isSome ↔
    ∃ w q, (Regex.Point.start s.rest).Reaches w q ∧ r.Matches (.start s.rest) q
  /-- It gives the preferred match, that of the first way through. -/
  preferred : s.scan r = (r.ways (.start s.rest)).head?.map s.advance
  /-- A search gives the same. -/
  searched : ∀ a, s.scan r = some a → s.scanUntil r = some a
  /-- Without a match at the cursor, a search gives one that begins after it. -/
  later : ∀ u t, s.scan r = none → s.scanUntil r = some (u, t) →
    ∃ v w m q, v ≠ [] ∧ u = v ++ w ∧ (Regex.Point.start s.rest).Reaches v m ∧
      m.Reaches w q ∧ r.matchAt m = some q ∧ s.advance q = (u, t)

end Scanner

/-- What is read of a pattern is read of it by itself, and it does not end in a comment. -/
theorem Pattern.of_read {data : Regex.CharacterData} {source : String} {p : Pattern}
    (h : Pattern.read source data = .ok p) :
    p.source = source ∧ Regex.ofPattern data source.toList = .ok p.regex ∧
      ¬ Regex.EndsInComment source.toList := by
  obtain ⟨w, hw, h⟩ := bind_eq_ok_iff.mp h
  obtain ⟨r, hr, h⟩ := bind_eq_ok_iff.mp h
  cases h
  refine ⟨rfl, hr, ?_⟩
  intro hs
  cases hw.symm.trans (Regex.ofPattern_wrapped_of_comment hr hs)

/-- Held to the cursor, a pattern matches what it matches there and nothing else, and searching
for it prefers that match to any that begins later. -/
theorem Pattern.matchesAtCursor {data : Regex.CharacterData} {source : String} {p : Pattern}
    (h : Pattern.read source data = .ok p) {s : Scanner} (hs : s.atEnd = false) :
    s.MatchesAtCursor data source.toList p.regex := by
  obtain ⟨_, hr, hcomment⟩ := Pattern.of_read h
  have hwf := Regex.wellFormed_of_ofPattern hr
  have hscan : s.scan p.regex = (p.regex.matchAt (.start s.rest)).map s.advance := by
    rw [Scanner.scan, hs]
    rfl
  have hsearch : s.scanUntil p.regex = (p.regex.find (.start s.rest)).map s.advance := by
    rw [Scanner.scanUntil, hs]
    rfl
  refine ⟨⟨_, Regex.ofPattern_wrapped hr hcomment, ?_⟩, ?_, ?_, ?_, ?_⟩
  · rw [Regex.find_anchored, hscan]
  · rw [hscan, Option.isSome_map, Regex.isSome_matchAt_iff hwf]
    constructor
    · rintro ⟨q, hq⟩
      obtain ⟨w, hw⟩ := Regex.leadsTo_of_matches hwf hq
      exact ⟨w, q, hw, hq⟩
    · rintro ⟨_, q, _, hq⟩
      exact ⟨q, hq⟩
  · rw [hscan, Regex.matchAt_eq_head?_ways]
  · intro a ha
    rw [hscan] at ha
    obtain ⟨q, hq, rfl⟩ := Option.map_eq_some_iff.mp ha
    rw [hsearch, Regex.find_of_matchAt hq]
    rfl
  · intro u t hnone hsome
    rw [hscan, Option.map_eq_none_iff] at hnone
    rw [hsearch] at hsome
    obtain ⟨q, hq, hadvance⟩ := Option.map_eq_some_iff.mp hsome
    obtain ⟨m, ⟨v, hv⟩, hmatch, _⟩ := Regex.exists_of_find hq
    obtain ⟨w, hw⟩ := Regex.matchAt_reaches hmatch
    refine ⟨v, w, m, q, ?_, ?_, hv, hw, hmatch, hadvance⟩
    · rintro rfl
      have hstart : m = .start s.rest :=
        Regex.Point.LeadsTo.antisymm ⟨[], hv⟩ ⟨[], hv.1.symm, hv.2.symm⟩
      rw [hstart, hnone] at hmatch
      cases hmatch
    · rw [← (Prod.mk.inj hadvance).1, Regex.Point.passed, (hv.trans hw).2]
      show ((v ++ w).reverse ++ []).reverse = v ++ w
      rw [List.append_nil, List.reverse_reverse]

/-- Neither branch of `x|y` escapes the anchor. -/
theorem Pattern.matchesAtCursor_alternative :
    ∃ p, Pattern.read "x|y" = .ok p ∧ (Scanner.ofText ['b', 'y']).atEnd = false ∧
      (Scanner.ofText ['b', 'y']).MatchesAtCursor .none "x|y".toList p.regex :=
  have hread : Pattern.read "x|y" = .ok ⟨"x|y", .alt (.char 'x') (.char 'y')⟩ := by
    decide +kernel
  ⟨_, hread, rfl, Pattern.matchesAtCursor hread rfl⟩

/-! ## Searching by steps -/

namespace Regex

/-- The assertions that occur in the expression. -/
def assertions : Regex → List Assertion
  | empty => []
  | one _ => []
  | assert a => [a]
  | seq r s => r.assertions ++ s.assertions
  | alt r s => r.assertions ++ s.assertions
  | times r _ _ _ => r.assertions

theorem looksAhead_of_assertions {r : Regex} (h : ∀ a ∈ r.assertions, a.looksAhead = true) :
    r.looksAhead = true := by
  induction r with
  | empty => rfl
  | one a => rfl
  | assert a => exact h a (.head _)
  | seq r s ihr ihs | alt r s ihr ihs =>
    refine Bool.and_eq_true_iff.mpr ⟨ihr ?_, ihs ?_⟩
    · intro a ha
      exact h a (List.mem_append_left _ ha)
    · intro a ha
      exact h a (List.mem_append_right _ ha)
  | times r lo hi lazy ih => exact ih h

variable {r : Regex} {cs t : List Char}

/-- A search finds what the longest rest that is matched has for its preferred match. -/
theorem findRest?_of_first (hr : r.looksAhead = true) {k : Nat} (hk : k ≤ cs.length)
    (h : r.matchRest? (cs.drop k) = some t) (hfirst : ∀ j < k, r.matchRest? (cs.drop j) = none) :
    r.findRest? cs = some t := by
  induction k generalizing cs with
  | zero =>
    rw [List.drop_zero] at h
    cases cs with
    | nil => rw [findRest?_nil, h]
    | cons c cs =>
      rw [findRest?_cons hr, h]
      rfl
  | succ k ih =>
    cases cs with
    | nil => exact absurd hk (Nat.not_succ_le_zero k)
    | cons c cs =>
      have hnone : r.matchRest? (c :: cs) = none := hfirst 0 (Nat.succ_pos k)
      rw [findRest?_cons hr, hnone, Option.none_or]
      refine ih (Nat.le_of_succ_le_succ hk) h ?_
      intro j hj
      exact hfirst (j + 1) (Nat.succ_lt_succ hj)

theorem findRest?_of_none (hr : r.looksAhead = true)
    (h : ∀ k < cs.length, r.matchRest? (cs.drop k) = none) :
    r.findRest? cs = r.matchRest? [] := by
  induction cs with
  | nil => exact findRest?_nil r
  | cons c cs ih =>
    have hnone : r.matchRest? (c :: cs) = none := h 0 (Nat.succ_pos _)
    rw [findRest?_cons hr, hnone, Option.none_or]
    refine ih ?_
    intro k hk
    exact h (k + 1) (Nat.succ_lt_succ hk)

/-- The place after the last character. -/
def Point.finish (text : List Char) : Point := ⟨text.reverse, [], text.length, by simp⟩

theorem isSome_matchRest?_nil_iff (hr : r.looksAhead = true) (hwf : r.WellFormed)
    (cs : List Char) :
    (r.matchRest? []).isSome ↔ r.Matches (.finish cs) (.finish cs) := by
  have hshift : Point.finish cs = (Point.start []).shift cs.reverse :=
    Point.eq_shift_start (.finish cs)
  have hsome : (r.matchRest? []).isSome = (r.matchAt (.finish cs)).isSome := by
    rw [← map_ahead_matchAt, hshift, matchAt_shift hr, Option.isSome_map, Option.isSome_map]
  rw [hsome, isSome_matchAt_iff hwf]
  constructor
  · rintro ⟨q, hq⟩
    have hlead := leadsTo_of_matches hwf hq
    have hle := hlead.index_le
    have hsum : q.index + q.ahead.length = (Point.finish cs).index := hlead.index_add_length
    have hstay : q = .finish cs := hlead.eq_of_index_eq (.refl _) (by omega)
    exact hstay ▸ hq
  · intro hq
    exact ⟨_, hq⟩

end Regex

namespace Scanner

/-- `k` characters taken one after the other. -/
def getChars : Nat → Scanner → Option (List Char × Scanner)
  | 0, s => some ([], s)
  | k + 1, s => s.getChar.bind fun (c, t) => (getChars k t).map fun (cs, u) => (c :: cs, u)

/-- What searching for `r` comes to, if it is to be the same as taking one character after
the other until there is a match at the cursor. -/
structure SearchesBySteps (s : Scanner) (r : Regex) : Prop where
  /-- The search gives the characters taken before the first match, and then the match. -/
  found : ∀ k cs t w u, k < s.rest.length → s.getChars k = some (cs, t) →
    t.scan r = some (w, u) →
    (∀ j cs' t', j < k → s.getChars j = some (cs', t') → t'.scan r = none) →
    s.scanUntil r = some (cs ++ w, u)
  /-- Without any, the search succeeds if `r` matches nothing at the end of the text. -/
  isSome_iff : (∀ k cs t, k < s.rest.length → s.getChars k = some (cs, t) → t.scan r = none) →
    ((s.scanUntil r).isSome ↔ r.Matches (.finish s.rest) (.finish s.rest))
  /-- It then gives all that is ahead. -/
  ended : (∀ k cs t, k < s.rest.length → s.getChars k = some (cs, t) → t.scan r = none) →
    ∀ a, s.scanUntil r = some a → a = (s.rest, s.terminate)

theorem getChars_eq {s : Scanner} {k : Nat} (hk : k ≤ s.rest.length) :
    s.getChars k = some (s.rest.take k, s.upTo (s.rest.drop k)) := by
  induction k generalizing s with
  | zero =>
    rw [List.drop_zero, upTo_self]
    rfl
  | succ k ih =>
    obtain ⟨passed, rest⟩ := s
    cases rest with
    | nil => exact absurd hk (Nat.not_succ_le_zero k)
    | cons c rest =>
      show (getChars k ⟨c :: passed, rest⟩).map _ = _
      rw [ih (Nat.le_of_succ_le_succ hk), upTo_passed_cons c (List.drop_suffix k rest)]
      rfl

end Scanner

/-- Searching for a pattern none of whose assertions looks back is the same as taking one
character after the other until it matches at the cursor. -/
theorem Pattern.searchesBySteps {data : Regex.CharacterData} {source : String} {p : Pattern}
    (h : Pattern.read source data = .ok p) (hr : ∀ a ∈ p.regex.assertions, a.looksAhead = true)
    {s : Scanner} (hs : s.atEnd = false) : s.SearchesBySteps p.regex := by
  obtain ⟨_, hread, _⟩ := Pattern.of_read h
  have hwf := Regex.wellFormed_of_ofPattern hread
  have hlook := Regex.looksAhead_of_assertions hr
  have hne : s.rest ≠ [] := by
    intro hnil
    rw [Scanner.atEnd_of_eq hnil] at hs
    cases hs
  have hscan : ∀ k < s.rest.length, (s.upTo (s.rest.drop k)).scan p.regex
      = (p.regex.matchRest? (s.rest.drop k)).map fun t =>
          ((s.upTo (s.rest.drop k)).before t, (s.upTo (s.rest.drop k)).upTo t) := by
    intro k hk
    refine Scanner.scan_of_ne_nil ?_ p.regex
    intro hnil
    exact Nat.not_le_of_lt hk (List.drop_eq_nil_iff.mp hnil)
  have hmiss : ∀ k < s.rest.length, (∀ cs t, s.getChars k = some (cs, t) →
      t.scan p.regex = none) → p.regex.matchRest? (s.rest.drop k) = none := by
    intro k hk hnone
    have hnone := hnone _ _ (Scanner.getChars_eq (Nat.le_of_lt hk))
    rw [hscan k hk, Option.map_eq_none_iff] at hnone
    exact hnone
  constructor
  case found =>
    intro k cs t w u hk hchars hmatch hfirst
    rw [Scanner.getChars_eq (Nat.le_of_lt hk)] at hchars
    cases hchars
    rw [hscan k hk] at hmatch
    obtain ⟨v, hv, hmoved⟩ := Option.map_eq_some_iff.mp hmatch
    cases hmoved
    have hfind : p.regex.findRest? s.rest = some v := by
      refine Regex.findRest?_of_first hlook (Nat.le_of_lt hk) hv ?_
      intro j hj
      exact hmiss j (Nat.lt_trans hj hk) fun cs t => hfirst j cs t hj
    have hsuffix : v <:+ s.rest.drop k := Regex.suffix_of_matchRest? hv
    have hbefore : (s.upTo (s.rest.drop k)).before v ++ v = s.rest.drop k :=
      Scanner.before_append hsuffix
    have hwhole : s.rest = (s.rest.take k ++ (s.upTo (s.rest.drop k)).before v) ++ v := by
      rw [List.append_assoc, hbefore, List.take_append_drop]
    rw [Scanner.scanUntil_of_ne_nil hne, hfind, Scanner.upTo_upTo (List.drop_suffix k _) hsuffix,
      ← Scanner.before_of_eq hwhole]
    rfl
  case isSome_iff =>
    intro hnone
    rw [Scanner.scanUntil_of_ne_nil hne, Option.isSome_map,
      Regex.findRest?_of_none hlook fun k hk => hmiss k hk fun cs t => hnone k cs t hk,
      Regex.isSome_matchRest?_nil_iff hlook hwf]
  case ended =>
    intro hnone a ha
    rw [Scanner.scanUntil_of_ne_nil hne,
      Regex.findRest?_of_none hlook fun k hk => hmiss k hk fun cs t => hnone k cs t hk] at ha
    obtain ⟨v, hv, rfl⟩ := Option.map_eq_some_iff.mp ha
    obtain rfl := List.suffix_nil.mp (Regex.suffix_of_matchRest? hv)
    rw [Scanner.terminate_eq, Scanner.before_of_eq (List.append_nil s.rest).symm]

theorem Pattern.searchesBySteps_textEnd :
    ∃ p, Pattern.read "b$" = .ok p ∧ (∀ a ∈ p.regex.assertions, a.looksAhead = true) ∧
      (Scanner.ofText ['a', 'b']).atEnd = false ∧
      (Scanner.ofText ['a', 'b']).SearchesBySteps p.regex :=
  have hread : Pattern.read "b$" = .ok ⟨"b$", .seq (.char 'b') (.assert .textEnd)⟩ := by
    decide +kernel
  have hassertions : ∀ a ∈ Regex.assertions (.seq (.char 'b') (.assert .textEnd)),
      a.looksAhead = true := by
    decide
  ⟨_, hread, hassertions, rfl, Pattern.searchesBySteps hread hassertions rfl⟩

/-- An assertion that looks back sees less after a step.  In `ab`, `\Bb` is found after the
`a`, but where the `a` has been passed it does not match at the cursor. -/
theorem Pattern.not_searchesBySteps_notWordBoundary :
    ∃ p, Pattern.read "\\Bb" = .ok p ∧ .textStart ∉ p.regex.assertions ∧
      .word .boundary false ∉ p.regex.assertions ∧
      (Scanner.ofText ['a', 'b']).atEnd = false ∧
      ¬ (Scanner.ofText ['a', 'b']).SearchesBySteps p.regex := by
  let r : Regex := .seq (.assert (.word .elsewhere false)) (.char 'b')
  have hread : Pattern.read "\\Bb" = .ok ⟨"\\Bb", r⟩ := by decide +kernel
  refine ⟨_, hread, by decide, by decide, rfl, ?_⟩
  intro h
  have hnone : ∀ k cs t, k < 2 → (Scanner.ofText ['a', 'b']).getChars k = some (cs, t) →
      t.scan r = none := by
    intro k cs t hk hchars
    have hcases : k = 0 ∨ k = 1 := by omega
    rcases hcases with rfl | rfl
    all_goals
      cases hchars
      decide +kernel
  have hfound : ((Scanner.ofText ['a', 'b']).scanUntil r).isSome := by decide +kernel
  obtain ⟨m, ⟨_, rfl⟩, c, rest, hahead, _⟩ := (h.isSome_iff hnone).mp hfound
  cases hahead

end SourceTokens

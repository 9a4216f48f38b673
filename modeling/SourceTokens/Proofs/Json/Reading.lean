/-
# `SourceTokens.Proofs.Json.Reading` — the readers on JSON text

What each reader makes of text that the grammar allows: what it reads, and what it leaves
(`reading`, `leaving`).  Places in the text are left out, and so are the reasons for a
failure, so that a reader is described by one equation whether it succeeds or not.
-/
import Mathlib.Data.List.Basic
import SourceTokens.Json.Reader
import SourceTokens.Proofs.Except
import SourceTokens.Proofs.Json.Grammar

namespace SourceTokens.Json

variable {α : Type} {b r t : List Char} {c : Cursor} {d : Char}

/-- What has been read and what is left, if the reading succeeds. -/
def reading (x : Except Error (α × Cursor)) : Option (α × List Char) :=
  x.toOption.map fun p => (p.1, p.2.rest)

/-- What is left, if the reading succeeds. -/
def leaving (x : Except Error Cursor) : Option (List Char) := x.toOption.map Cursor.rest

theorem reading_eq_some_iff {x : Except Error (α × Cursor)} {a : α} :
    reading x = some (a, r) ↔ ∃ c, x = .ok (a, c) ∧ c.rest = r := by
  cases x with
  | error e => simp [reading, Except.toOption]
  | ok p =>
    obtain ⟨a', c⟩ := p
    simp [reading, Except.toOption]

theorem reading_eq_none_iff {x : Except Error (α × Cursor)} :
    reading x = none ↔ ∃ e, x = .error e := by
  cases x <;> simp [reading, Except.toOption]

theorem leaving_eq_some_iff {x : Except Error Cursor} :
    leaving x = some r ↔ ∃ c, x = .ok c ∧ c.rest = r := by
  cases x <;> simp [leaving, Except.toOption]

theorem leaving_eq_none_iff {x : Except Error Cursor} :
    leaving x = none ↔ ∃ e, x = .error e := by
  cases x <;> simp [leaving, Except.toOption]

@[simp]
theorem reading_pure (a : α) (c : Cursor) :
    reading (pure (a, c) : Except Error (α × Cursor)) = some (a, c.rest) := rfl

@[simp]
theorem reading_ok (a : α) (c : Cursor) : reading (.ok (a, c)) = some (a, c.rest) := rfl

@[simp]
theorem reading_error (e : Error) : reading (.error e : Except Error (α × Cursor)) = none := rfl

@[simp]
theorem reading_fail (f : Fault) (c : Cursor) :
    reading (c.fail f : Except Error (α × Cursor)) = none := rfl

@[simp]
theorem reading_failAhead (f : Fault) (c : Cursor) :
    reading (c.failAhead f : Except Error (α × Cursor)) = none := rfl

/-! ## Blanks -/

/-- A text that begins with no blank. -/
def Bare (r : List Char) : Prop := ∀ d ∈ r.head?, ¬ Blank [d]

theorem bare_nil : Bare [] := by simp [Bare]

theorem bare_cons (h : ¬ Blank [d]) : Bare (d :: r) := by
  simpa [Bare] using h

theorem rest_skipBlank (hb : Blank b) (hr : Bare r) (hc : c.rest = b ++ r) :
    c.skipBlank.rest = r := by
  show c.rest.dropWhile _ = r
  rw [hc, List.dropWhile_append_of_pos]
  · cases r with
    | nil => rfl
    | cons d r =>
      have hd : ¬ Blank [d] := hr d rfl
      simp [Blank] at hd
      simp [hd]
  · intro d hd
    simpa [or_assoc] using hb d hd

/-- Blanks that are skipped at the end of the text leave nothing. -/
theorem rest_skipBlank_of_blank (hb : Blank b) (hc : c.rest = b) : c.skipBlank.rest = [] :=
  rest_skipBlank hb bare_nil (by simpa using hc)

theorem peek_of_rest (hc : c.rest = d :: r) : c.peek = some d := by
  simp [Cursor.peek, hc]

theorem rest_bump (hc : c.rest = d :: r) : c.bump.rest = r := by
  simp [Cursor.bump, hc]

/-! ## Fixed text -/

theorem leaving_keyword {ks : List Char} (hc : c.rest = ks ++ r) :
    leaving (keyword ks c) = some r := by
  induction ks generalizing c with
  | nil => simp [keyword, leaving_eq_some_iff, pure, Except.pure, hc]
  | cons k ks ih =>
    have hcons : c.rest = k :: (ks ++ r) := hc
    simp [keyword, hcons, ih (rest_bump hcons)]

theorem leaving_colon (hb : Blank b) (hc : c.rest = b ++ ':' :: r) :
    leaving (colon c) = some r := by
  have hskip : c.skipBlank.rest = ':' :: r := rest_skipBlank hb (bare_cons (by decide)) hc
  simp [colon, peek_of_rest hskip, leaving_eq_some_iff, pure, Except.pure, rest_bump hskip]

theorem reading_value (hb : Blank b) (hd : ¬ Blank [d]) (hc : c.rest = b ++ d :: r) :
    reading (value c) = some (d, d :: r) := by
  have hskip : c.skipBlank.rest = d :: r := rest_skipBlank hb (bare_cons hd) hc
  simp [value, peek_of_rest hskip, hskip]

/-- The first character of a document stands where its value is looked for. -/
theorem exists_value {x : Document} (h : Says x t) (hb : Blank b) (hc : c.rest = b ++ (t ++ r)) :
    ∃ f u c', t = f :: u ∧ value c = .ok (f, c') ∧ c'.rest = t ++ r := by
  obtain ⟨f, u, rfl, hbare, -⟩ := h.exists_cons
  obtain ⟨c', hvalue, hrest⟩ := reading_eq_some_iff.mp (reading_value hb hbare hc)
  exact ⟨f, u, c', rfl, hvalue, hrest⟩

/-! ## Strings -/

namespace Quoted

variable {ds es ts s : List Char} {n m : Nat} {p : Position}

theorem fourDigits_eq (h : FourDigits ds n) (hc : c.rest = ds ++ r) :
    ∃ q, fourDigits c = .ok q ∧ q.value = n ∧ q.next.rest = r := by
  obtain ⟨hlength, hvalue⟩ := h
  obtain ⟨d₁, d₂, d₃, d₄, rfl⟩ := List.length_eq_four.mp hlength
  obtain ⟨rest, p⟩ := c
  subst hc
  refine ⟨⟨n, ⟨r, ⟨p.line, p.column + 4⟩⟩, by simp; omega⟩, ?_, rfl, rfl⟩
  simp [fourDigits, hvalue, pure, Except.pure]

theorem expectInEscape_eq (hc : c.rest = d :: r) :
    ∃ q, expectInEscape d c = .ok q ∧ q.next.rest = r := by
  obtain ⟨rest, p⟩ := c
  subst hc
  exact ⟨⟨(), ⟨r, p.past d⟩, by simp⟩, by simp [expectInEscape, pure, Except.pure], rfl⟩

theorem numericEscape_unit (h : FourDigits ds n) (hn : n < 0xd800 ∨ 0xdfff < n)
    (hc : c.rest = ds ++ r) :
    ∃ q, numericEscape c = .ok q ∧ q.value = .ofNat n ∧ q.next.rest = r := by
  obtain ⟨q, hq, rfl, hrest⟩ := fourDigits_eq h hc
  have htrail : ¬ (0xdc00 ≤ q.value ∧ q.value ≤ 0xdfff) := by omega
  have hlead : ¬ (0xd800 ≤ q.value ∧ q.value ≤ 0xdbff) := by omega
  refine ⟨⟨.ofNat q.value, q.next, q.shorter⟩, ?_, rfl, hrest⟩
  simp [numericEscape, hq, htrail, hlead, bind, Except.bind, pure, Except.pure]

theorem numericEscape_pair (h : FourDigits ds n) (h' : FourDigits es m)
    (hn : 0xd800 ≤ n ∧ n ≤ 0xdbff) (hm : 0xdc00 ≤ m ∧ m ≤ 0xdfff)
    (hc : c.rest = ds ++ '\\' :: 'u' :: (es ++ r)) :
    ∃ q, numericEscape c = .ok q ∧
      q.value = .ofNat ((n - 0xd800) * 0x400 + (m - 0xdc00) + 0x10000) ∧ q.next.rest = r := by
  obtain ⟨q, hq, rfl, hrest⟩ := fourDigits_eq h hc
  obtain ⟨b, hb, hbrest⟩ := expectInEscape_eq hrest
  obtain ⟨u, hu, hurest⟩ := expectInEscape_eq hbrest
  obtain ⟨q', hq', rfl, hrest'⟩ := fourDigits_eq h' hurest
  have htrail : ¬ (0xdc00 ≤ q.value ∧ q.value ≤ 0xdfff) := by omega
  have hshorter : q'.next.rest.length < c.rest.length := by
    have := q.shorter; have := b.shorter; have := u.shorter; have := q'.shorter
    omega
  refine ⟨⟨.ofNat ((q.value - 0xd800) * 0x400 + (q'.value - 0xdc00) + 0x10000), q'.next,
    hshorter⟩, ?_, by simp, hrest'⟩
  simp only [numericEscape, hq, hb, hu, hq', bind, Except.bind, if_neg htrail, if_pos hn,
    if_pos hm, pure, Except.pure]

theorem escape_letter {l : Char} (h : LetterEscape l d) (hc : c.rest = l :: r) :
    ∃ q, escape c = .ok q ∧ q.value = d ∧ q.next.rest = r := by
  obtain ⟨rest, p⟩ := c
  subst hc
  refine ⟨⟨d, ⟨r, p.past l⟩, by simp⟩, ?_, rfl, rfl⟩
  cases h <;> rfl

theorem escape_number (hc : c.rest = 'u' :: r) (hnumber : ∀ p, ∃ q,
    numericEscape ⟨r, p⟩ = .ok q ∧ q.value = d ∧ q.next.rest = t) :
    ∃ q, escape c = .ok q ∧ q.value = d ∧ q.next.rest = t := by
  obtain ⟨rest, p⟩ := c
  subst hc
  obtain ⟨q, hq, hvalue, hrest⟩ := hnumber (p.past 'u')
  refine ⟨⟨q.value, q.next, ?_⟩, ?_, hvalue, hrest⟩
  · have := q.shorter
    simp_all
    omega
  · simp [escape, hq, bind, Except.bind, pure, Except.pure]

theorem escape_eq (h : Spelling ('\\' :: t) d) (hc : c.rest = t ++ r) :
    ∃ q, escape c = .ok q ∧ q.value = d ∧ q.next.rest = r := by
  cases h with
  | plain _ _ hbackslash => cases hbackslash rfl
  | letter h => exact escape_letter h hc
  | unit h hn => exact escape_number hc fun p => numericEscape_unit h hn rfl
  | pair h h' hn hm => exact escape_number hc fun p => numericEscape_pair h h' hn hm (by simp)

theorem Spelling.eq_or_cons (h : Spelling t d) :
    (t = [d] ∧ 0x20 ≤ d.toNat ∧ d ≠ '"' ∧ d ≠ '\\') ∨ ∃ ts, t = '\\' :: ts := by
  cases h with
  | plain hcontrol hquote hbackslash => exact .inl ⟨rfl, hcontrol, hquote, hbackslash⟩
  | letter | unit | pair => exact .inr ⟨_, rfl⟩

theorem reading_body (h : Spells t s) (read : List Char) (hc : c.rest = t ++ '"' :: r) :
    reading (body c read) = some (.ofList (read.reverse ++ s), r) := by
  induction h generalizing c read with
  | nil =>
    obtain ⟨rest, p⟩ := c
    subst hc
    simp [body]
  | @cons t ts s d h hs ih =>
    obtain ⟨rest, p⟩ := c
    subst hc
    rcases Spelling.eq_or_cons h with ⟨rfl, hcontrol, hquote, hbackslash⟩ | ⟨t, rfl⟩
    · rw [body.eq_def]
      simp [hquote, hbackslash, Nat.not_lt.mpr hcontrol, ih]
    · have hnext : (⟨t ++ ts ++ '"' :: r, p.past '\\'⟩ : Cursor).rest
          = t ++ (ts ++ '"' :: r) := by simp
      obtain ⟨q, hq, rfl, hrest⟩ := escape_eq h hnext
      rw [body.eq_def]
      simp [hq, ih, bind, Except.bind, hrest]

end Quoted

/-! ## Lists and objects -/

theorem reading_nextElement_close (first : Bool) (hb : Blank b) (hc : c.rest = b ++ ']' :: r) :
    reading (nextElement first c) = some (false, ']' :: r) := by
  have hskip : c.skipBlank.rest = ']' :: r := rest_skipBlank hb (bare_cons (by decide)) hc
  simp [nextElement, peek_of_rest hskip, hskip]

theorem reading_nextElement {first : Bool} {l : List Char} {x : Document} (hl : Lead first l)
    (hx : Says x t) (hc : c.rest = l ++ (t ++ r)) :
    reading (nextElement first c) = some (true, t ++ r) := by
  obtain ⟨d, u, rfl, hd, hclose⟩ := hx.exists_cons
  cases hl with
  | first hb =>
    have hskip : c.skipBlank.rest = d :: (u ++ r) := rest_skipBlank hb (bare_cons hd) hc
    simp [nextElement, peek_of_rest hskip, hskip]
  | @later b b' hb hb' =>
    have hskip : c.skipBlank.rest = ',' :: (b' ++ d :: (u ++ r)) :=
      rest_skipBlank hb (bare_cons (by decide)) (by simpa using hc)
    have hnext : c.skipBlank.bump.skipBlank.rest = d :: (u ++ r) :=
      rest_skipBlank hb' (bare_cons hd) (rest_bump hskip)
    simp [nextElement, peek_of_rest hskip, peek_of_rest hnext, hnext]

theorem reading_nextKey_close (first : Bool) (hb : Blank b) (hc : c.rest = b ++ '\x7d' :: r) :
    reading (nextKey first c) = some (none, '\x7d' :: r) := by
  have hskip : c.skipBlank.rest = '\x7d' :: r := rest_skipBlank hb (bare_cons (by decide)) hc
  simp [nextKey, peek_of_rest hskip, hskip]

theorem reading_nextKey {first : Bool} {l kt : List Char} {k : String} (hl : Lead first l)
    (hk : Spells kt k.toList) (hc : c.rest = l ++ '"' :: (kt ++ '"' :: r)) :
    reading (nextKey first c) = some (some k, r) := by
  have hkey : ∀ c : Cursor, c.rest = '"' :: (kt ++ '"' :: r) →
      ∃ c', Quoted.body c.bump [] = .ok (k, c') ∧ c'.rest = r := by
    intro c hc
    simpa using reading_eq_some_iff.mp (Quoted.reading_body hk [] (rest_bump hc))
  cases hl with
  | first hb =>
    have hskip : c.skipBlank.rest = '"' :: (kt ++ '"' :: r) :=
      rest_skipBlank hb (bare_cons (by decide)) hc
    obtain ⟨c', hbody, rfl⟩ := hkey _ hskip
    simp [nextKey, peek_of_rest hskip, hbody, bind, Except.bind]
  | @later b b' hb hb' =>
    have hskip : c.skipBlank.rest = ',' :: (b' ++ '"' :: (kt ++ '"' :: r)) :=
      rest_skipBlank hb (bare_cons (by decide)) (by simpa using hc)
    have hnext : c.skipBlank.bump.skipBlank.rest = '"' :: (kt ++ '"' :: r) :=
      rest_skipBlank hb' (bare_cons (by decide)) (rest_bump hskip)
    obtain ⟨c', hbody, rfl⟩ := hkey _ hnext
    simp [nextKey, peek_of_rest hskip, peek_of_rest hnext, hbody, bind, Except.bind]

theorem leaving_listEnd (hb : Blank b) (hc : c.rest = b ++ ']' :: r) :
    leaving (listEnd c) = some r := by
  have hskip : c.skipBlank.rest = ']' :: r := rest_skipBlank hb (bare_cons (by decide)) hc
  simp [listEnd, peek_of_rest hskip, leaving_eq_some_iff, pure, Except.pure, rest_bump hskip]

/-- A list does not end where another element stands. -/
theorem leaving_listEnd_of_element {first : Bool} {l : List Char} {x : Document} (hl : Lead first l)
    (hx : Says x t) (hc : c.rest = l ++ (t ++ r)) : leaving (listEnd c) = none := by
  have hnone : ∀ {e : Char} {u : List Char}, e ≠ ']' → c.skipBlank.rest = e :: u →
      leaving (listEnd c) = none := by
    intro e u he hskip
    simp only [listEnd, peek_of_rest hskip]
    split
    case h_1 heq => exact absurd (Option.some.inj heq) he
    case h_2 | h_3 => rfl
    case h_4 heq => cases heq
  obtain ⟨d, u, rfl, hd, hclose⟩ := hx.exists_cons
  cases hl with
  | first hb => exact hnone hclose (rest_skipBlank hb (bare_cons hd) hc)
  | later hb =>
    exact hnone (e := ',') (by decide)
      (rest_skipBlank hb (bare_cons (by decide)) (by simpa using hc))

@[simp]
theorem reading_objectFault (f : Fault) (c : Cursor) :
    reading (objectFault f c : Except Error (α × Cursor)) = none := by
  simp only [objectFault]
  split <;> rfl

end SourceTokens.Json

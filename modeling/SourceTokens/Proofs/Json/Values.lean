/-
# `SourceTokens.Proofs.Json.Values` — readers of a known shape on any document

A reader of a known shape is put before a text that says some document.  If the document
has the shape, its value is read and the text after it is left; if not, the reading fails.
Which documents have a shape, and what they are then worth, is said of documents alone:
`Document.boolean?`, `Document.word64?`, `Document.orNull?`.
-/
import SourceTokens.Proofs.Json.Numerals

namespace SourceTokens.Json

variable {α : Type} {b r t : List Char} {c : Cursor} {d : Document}

namespace Document

def boolean? : Document → Option Bool
  | .boolean b => some b
  | _ => none

def string? : Document → Option String
  | .string s => some s
  | _ => none

instance (x : Numeral) : Decidable x.IsInteger :=
  inferInstanceAs (Decidable (x.fraction = none ∧ x.exponent = none))

/-- A natural number of 64 bits is an integer without a sign, in range. -/
def word64? : Document → Option UInt64
  | .number x =>
    if x.negative = false ∧ x.IsInteger ∧ x.magnitude < UInt64.size then some (.ofNat x.magnitude)
    else none
  | _ => none

/-- Nothing, or what `f` finds. -/
def orNull? (f : Document → Option α) : Document → Option (Option α)
  | .null => some none
  | d => (f d).map some

theorem orNull?_of_ne {f : Document → Option α} (h : d ≠ .null) :
    d.orNull? f = (f d).map some := by
  cases d with
  | null => exact absurd rfl h
  | _ => rfl

end Document

theorem Says.eq_null {u : List Char} (h : Says d ('n' :: u)) : d = .null := by
  generalize htext : 'n' :: u = t at h
  cases h with
  | nullWord => rfl
  | trueWord | falseWord | string | array | object => simp at htext
  | number hx => exact absurd rfl (hx.first_ne htext.symm).1

/-- What stands in the place of something else is never read. -/
theorem exists_unexpected_eq_error (expected : String) (c : Cursor) :
    ∃ e, (unexpected expected c : Except Error α) = .error e := by
  have hbind : ∀ {β : Type} (x : Except Error β) (f : β → Except Error α),
      (∀ a, ∃ e, f a = .error e) → ∃ e, x >>= f = .error e := by
    intro β x f hf
    cases x with
    | error e => exact ⟨e, rfl⟩
    | ok a => exact hf a
  rw [unexpected.eq_def]
  split
  case h_1 | h_2 | h_3 | h_4 | h_5 => exact hbind _ _ fun _ => ⟨_, rfl⟩
  case h_6 | h_7 | h_9 => exact ⟨_, rfl⟩
  case h_8 =>
    split
    · exact hbind _ _ fun _ => ⟨_, rfl⟩
    · exact ⟨_, rfl⟩

theorem reading_boolean (h : Says d t) (hb : Blank b) (hc : c.rest = b ++ (t ++ r)) :
    reading (boolean c) = d.boolean?.map (·, r) := by
  obtain ⟨f, u, c', htext, hvalue, hrest⟩ := exists_value h hb hc
  cases h with
  | trueWord | falseWord =>
    cases htext
    obtain ⟨c₂, hword, rfl⟩ := leaving_eq_some_iff.mp (leaving_keyword (rest_bump hrest))
    simp [boolean, hvalue, hword, Document.boolean?, bind, Except.bind]
  | nullWord | string | array | object =>
    cases htext
    obtain ⟨e, herror⟩ := exists_unexpected_eq_error (α := Bool × Cursor) "a boolean" c'
    simp [boolean, hvalue, herror, Document.boolean?, bind, Except.bind]
  | @number x hx =>
    obtain ⟨e, herror⟩ := exists_unexpected_eq_error (α := Bool × Cursor) "a boolean" c'
    simp [boolean, hvalue, hx.first_ne htext, herror, Document.boolean?, bind, Except.bind]

theorem reading_string (expected : String) (h : Says d t) (hb : Blank b)
    (hc : c.rest = b ++ (t ++ r)) : reading (string expected c) = d.string?.map (·, r) := by
  obtain ⟨f, u, c', htext, hvalue, hrest⟩ := exists_value h hb hc
  cases h with
  | @string s t ht =>
    cases htext
    have hopen : c'.rest = '"' :: (t ++ '"' :: r) := by simpa using hrest
    obtain ⟨c₂, hread, rfl⟩ :=
      reading_eq_some_iff.mp (Quoted.reading_body ht [] (rest_bump hopen))
    simp at hread
    simp [string, hvalue, hread, Document.string?, bind, Except.bind]
  | nullWord | trueWord | falseWord | array | object =>
    cases htext
    obtain ⟨e, herror⟩ := exists_unexpected_eq_error (α := String × Cursor) expected c'
    simp [string, hvalue, herror, Document.string?, bind, Except.bind]
  | @number x hx =>
    obtain ⟨e, herror⟩ := exists_unexpected_eq_error (α := String × Cursor) expected c'
    simp [string, hvalue, hx.first_ne htext, herror, Document.string?, bind, Except.bind]

theorem leaving_null (h : Says .null t) (hb : Blank b) (hc : c.rest = b ++ (t ++ r)) :
    leaving (null c) = some r := by
  obtain ⟨f, u, c', htext, hvalue, hrest⟩ := exists_value h hb hc
  cases h with
  | nullWord =>
    cases htext
    obtain ⟨c₂, hword, rfl⟩ := leaving_eq_some_iff.mp (leaving_keyword (rest_bump hrest))
    simp [null, hvalue, hword, leaving, Except.toOption, bind, Except.bind]

theorem leaving_null_of_ne (h : Says d t) (hd : d ≠ .null) (hb : Blank b)
    (hc : c.rest = b ++ (t ++ r)) : leaving (null c) = none := by
  obtain ⟨f, u, c', rfl, hvalue, hrest⟩ := exists_value h hb hc
  have hf : f ≠ 'n' := by
    rintro rfl
    exact hd h.eq_null
  obtain ⟨e, herror⟩ := exists_unexpected_eq_error (α := Cursor) "unit" c'
  simp [null, hvalue, hf, herror, leaving, Except.toOption, bind, Except.bind]

theorem reading_word64_of_sign {x : Numeral} (hx : x.WellFormed) (hnegative : x.negative = true)
    (hb : Blank b) (hr : EndsNumeral r) (hc : c.rest = b ++ (x.text ++ r)) :
    reading (word64 c) = none := by
  have hminus : x.text = '-' :: (x.whole ++ (x.fractionText ++ x.exponentText)) := by
    simp [Numeral.text, hnegative]
  obtain ⟨f, u, c', htext, hvalue, hrest⟩ := exists_value (.number hx) hb hc
  obtain ⟨rfl, rfl⟩ := List.cons.inj (hminus.symm.trans htext)
  have hwhole : c'.bump.rest = x.whole ++ (x.fractionText ++ (x.exponentText ++ r)) :=
    rest_bump (by simpa [hminus] using hrest)
  cases hread : Number.read true c'.bump with
  | error e => simp [word64, hvalue, hread, bind, Except.bind]
  | ok p =>
    obtain ⟨n, c₂⟩ := p
    cases n with
    | natural n => cases (Number.isInteger_of_read hx hr hwhole hread).1
    | negative | floating => simp [word64, hvalue, hread, bind, Except.bind]

theorem reading_word64_of_no_sign {x : Numeral} (hx : x.WellFormed)
    (hnegative : x.negative = false) (hb : Blank b) (hr : EndsNumeral r)
    (hc : c.rest = b ++ (x.text ++ r)) :
    reading (word64 c)
      = if x.IsInteger ∧ x.magnitude < UInt64.size then some (.ofNat x.magnitude, r) else none := by
  obtain ⟨f, u, c', htext, hvalue, hrest⟩ := exists_value (.number hx) hb hc
  have hdigit : f.isDigit := by
    obtain ⟨d, ds, hds⟩ := List.exists_cons_of_ne_nil hx.whole.1
    obtain rfl : d = f := by simpa [Numeral.text, hnegative, hds] using congrArg List.head? htext
    exact hx.whole.2 d (by simp [hds])
  have hminus : f ≠ '-' := by
    rintro rfl
    simp at hdigit
  have hwhole : c'.rest = x.whole ++ (x.fractionText ++ (x.exponentText ++ r)) := by
    simpa [Numeral.text, hnegative] using hrest
  split
  case isTrue hfits =>
    obtain ⟨c₂, hread, rfl⟩ :=
      reading_eq_some_iff.mp (Number.reading_read hx hr hfits.1 hfits.2 hwhole)
    simp [word64, hvalue, hminus, hdigit, hread, bind, Except.bind]
  case isFalse hfits =>
    cases hread : Number.read false c' with
    | error e =>
      simp [word64, hvalue, hminus, hdigit, hread, bind, Except.bind]
    | ok p =>
      obtain ⟨n, c₂⟩ := p
      cases n with
      | natural n => exact absurd (Number.isInteger_of_read hx hr hwhole hread).2 hfits
      | negative | floating =>
        simp [word64, hvalue, hminus, hdigit, hread, bind, Except.bind]

theorem reading_word64 (h : Says d t) (hb : Blank b) (hr : EndsNumeral r)
    (hc : c.rest = b ++ (t ++ r)) : reading (word64 c) = d.word64?.map (·, r) := by
  obtain ⟨f, u, c', htext, hvalue, -⟩ := exists_value h hb hc
  cases h with
  | @number x hx =>
    cases hnegative : x.negative with
    | true => simp [reading_word64_of_sign hx hnegative hb hr hc, Document.word64?, hnegative]
    | false =>
      rw [reading_word64_of_no_sign hx hnegative hb hr hc]
      split <;> simp_all [Document.word64?]
  | nullWord | trueWord | falseWord | string | array | object =>
    cases htext
    obtain ⟨e, herror⟩ := exists_unexpected_eq_error (α := Number × Cursor) "u64" c'
    simp [word64, hvalue, herror, Document.word64?, bind, Except.bind]

theorem reading_nullOr {read : Cursor → Except Error (α × Cursor)} {f : Document → Option α}
    (h : Says d t) (hb : Blank b) (hc : c.rest = b ++ (t ++ r))
    (hread : ∀ c : Cursor, c.rest = t ++ r → reading (read c) = (f d).map (·, r)) :
    reading (nullOr read c) = (d.orNull? f).map (·, r) := by
  obtain ⟨g, u, rfl, hbare, -⟩ := h.exists_cons
  have hskip : c.skipBlank.rest = g :: u ++ r := rest_skipBlank hb (bare_cons hbare) hc
  by_cases hg : g = 'n'
  case pos =>
    subst hg
    obtain rfl := h.eq_null
    cases h
    obtain ⟨c₂, hword, rfl⟩ := leaving_eq_some_iff.mp (leaving_keyword (rest_bump hskip))
    simp [nullOr, peek_of_rest hskip, hword, Document.orNull?, bind, Except.bind]
  case neg =>
    have hnull : d ≠ .null := by
      rintro rfl
      cases h
      exact hg rfl
    have hpeek : c.skipBlank.peek ≠ some 'n' := by
      simpa [peek_of_rest hskip] using hg
    have hor : reading (nullOr read c)
        = (reading (read c.skipBlank)).map fun p => (some p.1, p.2) := by
      simp only [nullOr, hpeek, if_false]
      cases read c.skipBlank <;> rfl
    rw [hor, hread _ hskip, Document.orNull?_of_ne hnull]
    simp [Function.comp_def]

end SourceTokens.Json

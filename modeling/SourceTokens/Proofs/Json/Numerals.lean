/-
# `SourceTokens.Proofs.Json.Numerals` — numbers as they are written, and what they are worth

`Numeral.read` takes a number apart without working out what it is worth, so that it can
fail only where the grammar does.  `Number.read` does work it out, in 64 bits or as a
double.  What is shown of it is when it finds a natural number of 64 bits: for an integer
without a sign that is in range (`Number.reading_read`), and for nothing else
(`Number.isInteger_of_read`).  Doubles are never looked into.
-/
import SourceTokens.Proofs.Json.Reading

namespace SourceTokens.Json

variable {r : List Char} {c : Cursor} {x : Numeral}

/-! ## Reading a number as it is written -/

namespace Numeral

def readSign (c : Cursor) : Option Char × Cursor :=
  match c.peek with
  | some '+' => (some '+', c.bump)
  | some '-' => (some '-', c.bump)
  | _ => (none, c)

def readFraction (c : Cursor) : Except Error (Option (List Char) × Cursor) :=
  if c.peek = some '.' then
    let (ds, c) := Number.digits c.bump
    if ds = [] then c.failAhead .invalidNumber else pure (some ds, c)
  else pure (none, c)

def readExponent (c : Cursor) : Except Error (Option Exponent × Cursor) :=
  match c.peek with
  | none => pure (none, c)
  | some letter =>
    if letter = 'e' ∨ letter = 'E' then
      let (sign, c) := readSign c.bump
      let (ds, c) := Number.digits c
      if ds = [] then c.failAhead .invalidNumber else pure (some ⟨letter, sign, ds⟩, c)
    else pure (none, c)

/-- Whether there is a minus sign, and the cursor past it. -/
def readMinus (c : Cursor) : Bool × Cursor :=
  if c.peek = some '-' then (true, c.bump) else (false, c)

/-- The number at the cursor. -/
def read (c : Cursor) : Except Error (Numeral × Cursor) :=
  let (negative, c) := readMinus c
  let (ds, c) := Number.digits c
  if ds = [] ∨ (ds.head? = some '0' ∧ ds ≠ ['0']) then c.failAhead .invalidNumber
  else do
    let (fraction, c) ← readFraction c
    let (exponent, c) ← readExponent c
    return (⟨negative, ds, fraction, exponent⟩, c)

end Numeral

/-- A text that does not begin with a digit. -/
def EndsDigits (r : List Char) : Prop := ∀ d ∈ r.head?, d.isDigit = false

theorem EndsNumeral.endsDigits (h : EndsNumeral r) : EndsDigits r := fun d hd => (h d hd).1

theorem digits_eq {ds : List Char} (hds : Digits ds) (hr : EndsDigits r)
    (hc : c.rest = ds ++ r) :
    (Number.digits c).1 = ds ∧ (Number.digits c).2.rest = r := by
  have hstop : r.takeWhile Char.isDigit = [] ∧ r.dropWhile Char.isDigit = r := by
    cases r with
    | nil => simp
    | cons d r => simp [hr d rfl]
  constructor
  · show c.rest.takeWhile _ = ds
    rw [hc, List.takeWhile_append_of_pos hds.2, hstop.1, List.append_nil]
  · show c.rest.dropWhile _ = r
    rw [hc, List.dropWhile_append_of_pos hds.2, hstop.2]

theorem head_ne_of_digits {ds : List Char} {d : Char} (hds : Digits ds) (hd : d.isDigit = false) :
    (ds ++ r).head? ≠ some d := by
  obtain ⟨hne, hdigits⟩ := hds
  obtain ⟨e, ds, rfl⟩ := List.exists_cons_of_ne_nil hne
  intro heq
  obtain rfl : e = d := by simpa using heq
  simp [hdigits e (by simp)] at hd

namespace Numeral

theorem WellFormed.endsDigits_exponent (h : x.WellFormed) (hr : EndsNumeral r) :
    EndsDigits (x.exponentText ++ r) := by
  obtain ⟨negative, whole, fraction, exponent⟩ := x
  cases exponent with
  | none => simpa [exponentText] using hr.endsDigits
  | some e =>
    rcases (h.exponent e rfl).letter with he | he <;>
      simp [exponentText, EndsDigits, Exponent.text, he]

/-- What follows the digits before the point. -/
theorem WellFormed.endsDigits_fraction (h : x.WellFormed) (hr : EndsNumeral r) :
    EndsDigits (x.fractionText ++ (x.exponentText ++ r)) := by
  cases hfraction : x.fraction with
  | some ds => simp [fractionText, hfraction, EndsDigits]
  | none => simpa [fractionText, hfraction] using h.endsDigits_exponent hr

theorem readSign_eq {e : Exponent} (h : e.WellFormed)
    (hc : c.rest = e.sign.toList ++ (e.digits ++ r)) :
    (readSign c).1 = e.sign ∧ (readSign c).2.rest = e.digits ++ r := by
  cases hsign : e.sign with
  | some s =>
    simp only [hsign, Option.toList_some, List.singleton_append] at hc
    rcases h.sign s hsign with rfl | rfl <;> simp [readSign, peek_of_rest hc, rest_bump hc]
  | none =>
    simp only [hsign, Option.toList_none, List.nil_append] at hc
    have hplus : c.peek ≠ some '+' := by
      rw [Cursor.peek, hc]
      exact head_ne_of_digits h.digits (by decide)
    have hminus : c.peek ≠ some '-' := by
      rw [Cursor.peek, hc]
      exact head_ne_of_digits h.digits (by decide)
    simp [readSign, hc]

theorem reading_readExponent (h : x.WellFormed) (hr : EndsNumeral r)
    (hc : c.rest = x.exponentText ++ r) : reading (readExponent c) = some (x.exponent, r) := by
  cases hexponent : x.exponent with
  | none =>
    simp only [exponentText, hexponent, Option.map_none, Option.getD_none, List.nil_append] at hc
    rw [readExponent]
    split
    · simp [hc]
    next letter hpeek =>
      have hletter := hr letter (by simpa [Cursor.peek, hc] using hpeek)
      simp [hletter, hc]
  | some e =>
    have he := h.exponent e hexponent
    have hletter : c.rest = e.letter :: (e.sign.toList ++ (e.digits ++ r)) := by
      simpa [exponentText, hexponent, Exponent.text] using hc
    obtain ⟨hsign, hrest⟩ := readSign_eq he (rest_bump hletter)
    obtain ⟨hdigits, hend⟩ := digits_eq he.digits hr.endsDigits hrest
    simp [readExponent, peek_of_rest hletter, he.letter, hsign, hdigits, hend, he.digits.1]

theorem reading_readFraction (h : x.WellFormed) (hr : EndsNumeral r)
    (hc : c.rest = x.fractionText ++ (x.exponentText ++ r)) :
    reading (readFraction c) = some (x.fraction, x.exponentText ++ r) := by
  cases hfraction : x.fraction with
  | none =>
    have hrest : c.rest = x.exponentText ++ r := by
      simpa [fractionText, hfraction] using hc
    have hpoint : c.peek ≠ some '.' := by
      rw [Cursor.peek, hrest]
      cases hexponent : x.exponent with
      | none =>
        intro hhead
        simp [exponentText, hexponent] at hhead
        exact (hr _ hhead).2.1 rfl
      | some e =>
        rcases (h.exponent e hexponent).letter with he | he <;>
          simp [exponentText, hexponent, Exponent.text, he]
    simp [readFraction, hpoint, hrest]
  | some ds =>
    have hrest : c.rest = '.' :: (ds ++ (x.exponentText ++ r)) := by
      simpa [fractionText, hfraction] using hc
    have hds := h.fraction ds hfraction
    obtain ⟨hdigits, hend⟩ := digits_eq hds (h.endsDigits_exponent hr) (rest_bump hrest)
    simp [readFraction, peek_of_rest hrest, hdigits, hend, hds.1]

theorem readMinus_eq (h : x.WellFormed) (hc : c.rest = x.text ++ r) :
    (readMinus c).1 = x.negative ∧
      (readMinus c).2.rest = x.whole ++ (x.fractionText ++ (x.exponentText ++ r)) := by
  cases hnegative : x.negative with
  | true =>
    have hminus : c.rest = '-' :: (x.whole ++ (x.fractionText ++ (x.exponentText ++ r))) := by
      simpa [text, hnegative] using hc
    simp [readMinus, peek_of_rest hminus, rest_bump hminus]
  | false =>
    have hwhole : c.rest = x.whole ++ (x.fractionText ++ (x.exponentText ++ r)) := by
      simpa [text, hnegative] using hc
    have hminus : c.peek ≠ some '-' := by
      rw [Cursor.peek, hwhole]
      exact head_ne_of_digits h.whole (by decide)
    simp [readMinus, hminus, hwhole]

/-- A number is read as it is written. -/
theorem reading_read (h : x.WellFormed) (hr : EndsNumeral r) (hc : c.rest = x.text ++ r) :
    reading (read c) = some (x, r) := by
  obtain ⟨hnegative, hwhole⟩ := readMinus_eq h hc
  obtain ⟨hdigits, hnext⟩ := digits_eq h.whole (h.endsDigits_fraction hr) hwhole
  obtain ⟨c₁, hfraction, hc₁⟩ := reading_eq_some_iff.mp (reading_readFraction h hr hnext)
  obtain ⟨c₂, hexponent, hc₂⟩ := reading_eq_some_iff.mp (reading_readExponent h hr hc₁)
  have hzero : ¬ (x.whole.head? = some '0' ∧ x.whole ≠ ['0']) := by
    rintro ⟨hhead, hne⟩
    obtain ⟨ds, hds⟩ := List.head?_eq_some_iff.mp hhead
    exact hne (by rw [hds, h.leadingZero ds hds])
  have hok : ¬ (x.whole = [] ∨ (x.whole.head? = some '0' ∧ x.whole ≠ ['0'])) :=
    not_or.mpr ⟨h.whole.1, hzero⟩
  simp only [read, hnegative, hdigits, if_neg hok, hfraction, hexponent, bind, Except.bind,
    reading_pure, hc₂]

end Numeral

/-! ## What a number is worth -/

namespace Number

theorem le_ofDigitChars (ds : List Char) (n : Nat) : n ≤ Nat.ofDigitChars 10 ds n := by
  induction ds generalizing n with
  | nil => simp
  | cons d ds ih =>
    have hstep := ih (10 * n + (d.toNat - '0'.toNat))
    rw [Nat.ofDigitChars_cons]
    omega

/-- Digits of a number that stays below the limit are all taken in. -/
theorem absorb_of_lt {limit n : Nat} {ds : List Char} (h : Nat.ofDigitChars 10 ds n < limit) :
    absorb limit n ds = (Nat.ofDigitChars 10 ds n, []) := by
  induction ds generalizing n with
  | nil => simp [absorb]
  | cons d ds ih =>
    rw [Nat.ofDigitChars_cons, Nat.mul_comm] at h ⊢
    have hn : n * 10 + digitValue d < limit := Nat.lt_of_le_of_lt (le_ofDigitChars ds _) h
    rw [absorb, if_pos hn]
    exact ih h

/-- The digits of a number that does not stay below the limit are not all taken in. -/
theorem absorb_of_le {limit n : Nat} {ds : List Char} (hn : n < limit)
    (h : limit ≤ Nat.ofDigitChars 10 ds n) : (absorb limit n ds).2 ≠ [] := by
  induction ds generalizing n with
  | nil => simp at h; omega
  | cons d ds ih =>
    rw [absorb]
    split
    case isTrue hd =>
      rw [Nat.ofDigitChars_cons, Nat.mul_comm] at h
      exact ih hd h
    case isFalse => simp

theorem whole_of_lt {ds : List Char} (h : Nat.ofDigitChars 10 ds 0 < UInt64.size) :
    Scaled.whole ds = ⟨Nat.ofDigitChars 10 ds 0, 0⟩ := by
  have habsorb : absorb (Nat.pow 2 64) 0 ds = (Nat.ofDigitChars 10 ds 0, []) := absorb_of_lt h
  simp [Scaled.whole, habsorb]

theorem exponent_whole_of_le {ds : List Char} (h : UInt64.size ≤ Nat.ofDigitChars 10 ds 0) :
    (Scaled.whole ds).exponent ≠ 0 := by
  have hleft : (absorb (Nat.pow 2 64) 0 ds).2 ≠ [] := absorb_of_le (by decide) h
  simpa [Scaled.whole] using hleft

/-! ### Doubles are no natural numbers -/

variable {negative : Bool} {s : Scaled} {n : Nat} {c' : Cursor}

theorem plainDouble_ne : plainDouble negative s c ≠ .ok (.natural n, c') := by
  rw [plainDouble]
  split
  · rintro ⟨⟩
  · rintro ⟨⟩

theorem exponentPart_ne : exponentPart negative s c ≠ .ok (.natural n, c') := by
  rw [exponentPart.eq_def]
  simp only
  split
  · rintro ⟨⟩
  · split
    · split
      · rintro ⟨⟩
      · rintro ⟨⟩
    · split
      · rintro ⟨⟩
      · rintro ⟨⟩

theorem integer_eq_ok (h : integer negative s c = .ok (.natural n, c')) :
    negative = false ∧ s.exponent = 0 := by
  rw [integer] at h
  split at h
  · exact absurd h plainDouble_ne
  · split at h
    · simp_all
    · split at h
      · exact absurd h plainDouble_ne
      · cases h

/-- A natural number has no sign, no point and no exponent, and its digits fit. -/
theorem natural_of_read (h : read negative c = .ok (.natural n, c')) :
    negative = false ∧ (digits c).2.peek ≠ some '.' ∧ atExponent (digits c).2 = false ∧
      (Scaled.whole (digits c).1).exponent = 0 := by
  rw [read.eq_def] at h
  simp only at h
  split at h
  case h_1 => cases h
  case h_2 => cases h
  case h_3 =>
    split at h
    case isTrue =>
      obtain ⟨⟨s, c⟩, -, h⟩ := bind_eq_ok_iff.mp h
      simp only at h
      split at h
      · exact absurd h exponentPart_ne
      · exact absurd h plainDouble_ne
    case isFalse hpoint =>
      split at h
      case isTrue => exact absurd h exponentPart_ne
      case isFalse hletter =>
        obtain ⟨hnegative, hexponent⟩ := integer_eq_ok h
        exact ⟨hnegative, hpoint, by simpa using hletter, hexponent⟩

/-! ### Integers of 64 bits -/

/-- An integer in range is read exactly. -/
theorem reading_read (h : x.WellFormed) (hr : EndsNumeral r) (hx : x.IsInteger)
    (hrange : x.magnitude < UInt64.size)
    (hc : c.rest = x.whole ++ (x.fractionText ++ (x.exponentText ++ r))) :
    reading (read false c) = some (.natural x.magnitude, r) := by
  have hwhole : c.rest = x.whole ++ r := by
    simpa [Numeral.fractionText, Numeral.exponentText, hx.1, hx.2] using hc
  obtain ⟨hdigits, hrest⟩ := digits_eq h.whole hr.endsDigits hwhole
  have hpoint : (digits c).2.peek ≠ some '.' := by
    rw [Cursor.peek, hrest]
    exact fun hhead => (hr _ hhead).2.1 rfl
  have hletter : atExponent (digits c).2 = false := by
    cases hpeek : (digits c).2.peek with
    | none => simp [atExponent, hpeek]
    | some d =>
      obtain ⟨-, -, he, hE⟩ := hr d (by rw [← hrest]; exact hpeek)
      simp [atExponent, hpeek, he, hE]
  have hinteger : reading (integer false (Scaled.whole x.whole) (digits c).2)
      = some (.natural x.magnitude, r) := by
    simp [integer, whole_of_lt hrange, Numeral.magnitude, hrest]
  rw [read.eq_def]
  simp only [hdigits]
  split
  case h_1 hnil => exact absurd hnil h.whole.1
  case h_2 d ds hzero => simpa using h.leadingZero _ hzero
  case h_3 => simpa [hpoint, hletter] using hinteger

/-- What is read as a natural number is written as an integer without a sign, and in
range. -/
theorem isInteger_of_read (h : x.WellFormed) (hr : EndsNumeral r)
    (hc : c.rest = x.whole ++ (x.fractionText ++ (x.exponentText ++ r)))
    (hread : read negative c = .ok (.natural n, c')) :
    negative = false ∧ x.IsInteger ∧ x.magnitude < UInt64.size := by
  obtain ⟨hdigits, hrest⟩ := digits_eq h.whole (h.endsDigits_fraction hr) hc
  obtain ⟨hnegative, hpoint, hletter, hexponent⟩ := natural_of_read hread
  have hfraction : x.fraction = none := by
    cases hfraction : x.fraction with
    | none => rfl
    | some ds => simp [Cursor.peek, hrest, Numeral.fractionText, hfraction] at hpoint
  have hnoexponent : x.exponent = none := by
    cases hx : x.exponent with
    | none => rfl
    | some e =>
      rcases (h.exponent e hx).letter with he | he <;>
        simp [atExponent, Cursor.peek, hrest, Numeral.fractionText, hfraction,
          Numeral.exponentText, hx, Exponent.text, he] at hletter
  refine ⟨hnegative, ⟨hfraction, hnoexponent⟩, ?_⟩
  by_contra hrange
  rw [hdigits] at hexponent
  exact exponent_whole_of_le (Nat.not_lt.mp hrange) hexponent

end Number

end SourceTokens.Json

/-
# `SourceTokens.Proofs.Json.Exact` — nothing but JSON is read

The other direction of `Document.read_of_writes`: what `Document.read` reads is a text that
the grammar allows, and says what has been read.  With both directions the reader is the
grammar (`Document.read_eq_ok_iff`), and the steps it is given are never too few.

For each reader, success is taken apart into what it has gone past and what it leaves.
-/
import Mathlib.Data.List.TakeWhile
import SourceTokens.Proofs.Json.Documents

namespace SourceTokens.Json

variable {c c' : Cursor} {d : Char}

/-! ## Blanks and fixed text -/

theorem exists_blank (c : Cursor) : ∃ b, Blank b ∧ c.rest = b ++ c.skipBlank.rest := by
  refine ⟨_, ?_, List.takeWhile_append_dropWhile.symm⟩
  intro d hd
  simpa [or_assoc] using List.mem_takeWhile_imp hd

theorem rest_of_peek (h : c.peek = some d) : c.rest = d :: c.bump.rest := by
  obtain ⟨rest, p⟩ := c
  cases rest with
  | nil => cases h
  | cons e rest =>
    cases h
    rfl

theorem rest_of_keyword {ks : List Char} (h : keyword ks c = .ok c') :
    c.rest = ks ++ c'.rest := by
  induction ks generalizing c with
  | nil => cases h; rfl
  | cons k ks ih =>
    rw [keyword] at h
    split at h
    · cases h
    next e rest hrest =>
      split at h
      case isFalse => cases h
      case isTrue hek =>
        subst hek
        rw [hrest, List.cons_append, ← ih h, rest_bump hrest]

theorem exists_of_value (h : value c = .ok (d, c')) :
    ∃ b, Blank b ∧ c.rest = b ++ c'.rest ∧ c'.peek = some d := by
  obtain ⟨b, hb, hrest⟩ := exists_blank c
  simp only [value] at h
  split at h
  next e hpeek =>
    cases h
    exact ⟨b, hb, hrest, hpeek⟩
  next => cases h

theorem exists_of_colon (h : colon c = .ok c') : ∃ b, Blank b ∧ c.rest = b ++ ':' :: c'.rest := by
  obtain ⟨b, hb, hrest⟩ := exists_blank c
  simp only [colon] at h
  split at h
  next hpeek =>
    cases h
    exact ⟨b, hb, by rw [hrest, rest_of_peek hpeek]⟩
  next => cases h
  next => cases h

/-! ## Strings -/

namespace Quoted

theorem letterEscape_of_lookup {l e : Char} (h : letterEscapes.lookup l = some e) :
    LetterEscape l e := by
  have hmem : (l, e) ∈ letterEscapes := by
    obtain ⟨front, back, heq, -⟩ := List.lookup_eq_some_iff.mp h
    simp [heq]
  have hall : ∀ p ∈ letterEscapes, LetterEscape p.1 p.2 := by
    simp only [letterEscapes, List.forall_mem_cons]
    exact ⟨.quote, .backslash, .slash, .backspace, .formFeed, .newline, .carriageReturn, .tab,
      by simp⟩
  exact hall _ hmem

theorem exists_of_fourDigits {q : Taken Nat c} (h : fourDigits c = .ok q) :
    ∃ ds, FourDigits ds q.value ∧ c.rest = ds ++ q.next.rest := by
  obtain ⟨rest, p⟩ := c
  rw [fourDigits.eq_def] at h
  split at h
  case h_1 d₁ d₂ d₃ d₄ rest hrest =>
    split at h
    case h_1 n hvalue =>
      cases h
      exact ⟨[d₁, d₂, d₃, d₄], ⟨rfl, hvalue⟩, hrest⟩
    case h_2 => cases h
  case h_2 => split at h <;> cases h

theorem rest_of_expectInEscape {q : Taken Unit c} (h : expectInEscape d c = .ok q) :
    c.rest = d :: q.next.rest := by
  rw [expectInEscape.eq_def] at h
  split at h
  · cases h
  next e rest hrest =>
    split at h
    case isTrue hed =>
      cases h
      exact hed ▸ hrest
    case isFalse => cases h

theorem exists_of_numericEscape {q : Taken Char c} (h : numericEscape c = .ok q) :
    ∃ t, Spelling ('\\' :: 'u' :: t) q.value ∧ c.rest = t ++ q.next.rest := by
  obtain ⟨r, hr, h⟩ := bind_eq_ok_iff.mp h
  obtain ⟨ds, hds, hrest⟩ := exists_of_fourDigits hr
  split at h
  case isTrue => cases h
  case isFalse htrail =>
    split at h
    case isFalse hlead =>
      cases h
      exact ⟨ds, .unit hds (by omega), hrest⟩
    case isTrue hlead =>
      obtain ⟨b, hb, h⟩ := bind_eq_ok_iff.mp h
      obtain ⟨u, hu, h⟩ := bind_eq_ok_iff.mp h
      obtain ⟨r', hr', h⟩ := bind_eq_ok_iff.mp h
      obtain ⟨es, hes, hrest'⟩ := exists_of_fourDigits hr'
      split at h
      case isFalse => cases h
      case isTrue hm =>
        have hpair := Spelling.pair hds hes hlead hm
        -- unfolding the number would not come to an end
        generalize (r.value - 0xd800) * 0x400 + (r'.value - 0xdc00) + 0x10000 = n at h hpair
        cases h
        refine ⟨ds ++ '\\' :: 'u' :: es, hpair, ?_⟩
        rw [hrest, rest_of_expectInEscape hb, rest_of_expectInEscape hu, hrest']
        simp

theorem exists_of_escape {q : Taken Char c} (h : escape c = .ok q) :
    ∃ t, Spelling ('\\' :: t) q.value ∧ c.rest = t ++ q.next.rest := by
  obtain ⟨rest, p⟩ := c
  rw [escape.eq_def] at h
  split at h
  case h_1 => cases h
  case h_2 rest hrest =>
    obtain ⟨r, hr, h⟩ := bind_eq_ok_iff.mp h
    cases h
    obtain ⟨t, ht, hnumber⟩ := exists_of_numericEscape hr
    exact ⟨'u' :: t, ht, hrest.trans (congrArg ('u' :: ·) hnumber)⟩
  case h_3 l rest _ hrest =>
    split at h
    case h_1 e hlookup =>
      cases h
      exact ⟨[l], .letter (letterEscape_of_lookup hlookup), hrest⟩
    case h_2 => cases h

theorem exists_of_body {c c' : Cursor} {read : List Char} {s : String}
    (h : body c read = .ok (s, c')) :
    ∃ t u, Spells t u ∧ s = .ofList (read.reverse ++ u) ∧ c.rest = t ++ '"' :: c'.rest := by
  rw [body.eq_def] at h
  split at h
  case h_1 => cases h
  case h_2 e rest hrest =>
    split at h
    case isTrue hquote =>
      cases h
      exact ⟨[], [], .nil, by simp, by rw [hrest, hquote]; rfl⟩
    case isFalse hquote =>
      split at h
      case isTrue hbackslash =>
        obtain ⟨q, hq, h⟩ := bind_eq_ok_iff.mp h
        obtain ⟨t, ht, hescape⟩ := exists_of_escape hq
        have hshorter : q.next.rest.length < c.rest.length := by
          simpa [hrest] using Nat.lt_succ_of_lt q.shorter
        obtain ⟨ts, u, hts, rfl, hnext⟩ := exists_of_body h
        exact ⟨_, _, .cons ht hts, by simp, by rw [hrest, hbackslash]; simp_all⟩
      case isFalse hbackslash =>
        split at h
        case isTrue => cases h
        case isFalse hcontrol =>
          have hshorter : rest.length < c.rest.length := by simp [hrest]
          obtain ⟨ts, u, hts, rfl, hnext⟩ := exists_of_body h
          exact ⟨_, _, .cons (.plain (Nat.not_lt.mp hcontrol) hquote hbackslash) hts, by simp,
            by rw [hrest]; simp_all⟩
termination_by c.rest.length

end Quoted

/-! ## Lists and objects -/

theorem exists_of_nextElement {first : Bool} (h : nextElement first c = .ok (true, c')) :
    ∃ l, Lead first l ∧ c.rest = l ++ c'.rest := by
  obtain ⟨b, hb, hrest⟩ := exists_blank c
  simp only [nextElement] at h
  split at h
  next => cases h
  next => cases h
  next e hne hpeek =>
    split at h
    case isTrue hfirst =>
      cases h
      exact ⟨b, hfirst ▸ .first hb, hrest⟩
    case isFalse hfirst =>
      split at h
      case isFalse => cases h
      case isTrue hcomma =>
        obtain ⟨b', hb', hrest'⟩ := exists_blank c.skipBlank.bump
        subst hcomma
        have hlead : c.rest = (b ++ ',' :: b') ++ c.skipBlank.bump.skipBlank.rest := by
          rw [hrest, rest_of_peek hpeek, hrest']
          simp
        split at h
        next => cases h
        next =>
          cases h
          exact ⟨_, (Bool.not_eq_true _ ▸ hfirst) ▸ .later hb hb', hlead⟩
        next => cases h

theorem exists_of_nextElement_close {first : Bool} (h : nextElement first c = .ok (false, c')) :
    ∃ b, Blank b ∧ c.rest = b ++ ']' :: c'.bump.rest := by
  obtain ⟨b, hb, hrest⟩ := exists_blank c
  simp only [nextElement] at h
  split at h
  next => cases h
  next hpeek =>
    cases h
    exact ⟨b, hb, by rw [hrest, rest_of_peek hpeek]⟩
  next =>
    split at h
    case isTrue => cases h
    case isFalse =>
      split at h
      case isFalse => cases h
      case isTrue => split at h <;> cases h

/-- A key is read from its opening quote to its closing one. -/
theorem exists_of_key {k : Option String} (hpeek : c.peek = some '"')
    (h : (do let (s, c) ← Quoted.body c.bump []; return (some s, c)) = .ok (k, c')) :
    ∃ s kt, k = some s ∧ Spells kt s.toList ∧ c.rest = '"' :: (kt ++ '"' :: c'.rest) := by
  obtain ⟨⟨s, c₁⟩, hbody, h⟩ := bind_eq_ok_iff.mp h
  cases h
  obtain ⟨kt, u, hkt, rfl, hrest⟩ := Quoted.exists_of_body hbody
  exact ⟨_, kt, rfl, by simpa using hkt, by rw [rest_of_peek hpeek, hrest]⟩

theorem exists_of_nextKey {first : Bool} {key : Option String}
    (h : nextKey first c = .ok (key, c')) :
    (∃ k l kt, key = some k ∧ Lead first l ∧ Spells kt k.toList ∧
        c.rest = l ++ '"' :: (kt ++ '"' :: c'.rest)) ∨
      key = none ∧ ∃ b, Blank b ∧ c.rest = b ++ '\x7d' :: c'.bump.rest := by
  obtain ⟨b, hb, hrest⟩ := exists_blank c
  simp only [nextKey] at h
  split at h
  next => cases h
  next hpeek =>
    cases h
    exact .inr ⟨rfl, b, hb, by rw [hrest, rest_of_peek hpeek]⟩
  next e hne hpeek =>
    refine .inl ?_
    split at h
    case isTrue hfirst =>
      split at h
      case isFalse => cases h
      case isTrue hquote =>
        obtain ⟨k, kt, hk, hkt, hkey⟩ := exists_of_key (hquote ▸ hpeek) h
        exact ⟨k, b, kt, hk, hfirst ▸ .first hb, hkt, by rw [hrest, hkey]⟩
    case isFalse hfirst =>
      split at h
      case isFalse => cases h
      case isTrue hcomma =>
        obtain ⟨b', hb', hrest'⟩ := exists_blank c.skipBlank.bump
        subst hcomma
        split at h
        next hquote =>
          obtain ⟨k, kt, hk, hkt, hkey⟩ := exists_of_key hquote h
          refine ⟨k, b ++ ',' :: b', kt, hk, (Bool.not_eq_true _ ▸ hfirst) ▸ .later hb hb', hkt, ?_⟩
          rw [hrest, rest_of_peek hpeek, hrest', hkey]
          simp
        next => cases h
        next => cases h
        next => cases h

/-! ## Numbers -/

theorem digits_append (c : Cursor) :
    c.rest = (Number.digits c).1 ++ (Number.digits c).2.rest :=
  List.takeWhile_append_dropWhile.symm

theorem digits_of_ne_nil (h : (Number.digits c).1 ≠ []) : Digits (Number.digits c).1 :=
  ⟨h, fun _ hd => List.mem_takeWhile_imp hd⟩

namespace Numeral

theorem readMinus_append (c : Cursor) :
    c.rest = (if (readMinus c).1 then ['-'] else []) ++ (readMinus c).2.rest := by
  rw [readMinus]
  split
  case isTrue hpeek => exact rest_of_peek hpeek
  case isFalse => rfl

theorem readSign_append (c : Cursor) :
    (∀ s ∈ (readSign c).1, s = '+' ∨ s = '-') ∧
      c.rest = (readSign c).1.toList ++ (readSign c).2.rest := by
  rw [readSign]
  split
  next hpeek => exact ⟨by simp, rest_of_peek hpeek⟩
  next hpeek => exact ⟨by simp, rest_of_peek hpeek⟩
  next => exact ⟨by simp, rfl⟩

theorem of_readFraction {fraction : Option (List Char)}
    (h : readFraction c = .ok (fraction, c')) :
    (∀ ds ∈ fraction, Digits ds) ∧ c.rest = (fraction.map ('.' :: ·)).getD [] ++ c'.rest := by
  simp only [readFraction] at h
  split at h
  case isFalse => cases h; exact ⟨by simp, rfl⟩
  case isTrue hpeek =>
    split at h
    case isTrue => cases h
    case isFalse hne =>
      cases h
      refine ⟨by simpa using digits_of_ne_nil hne, ?_⟩
      rw [rest_of_peek hpeek, digits_append c.bump]
      rfl

theorem of_readExponent {exponent : Option Exponent}
    (h : readExponent c = .ok (exponent, c')) :
    (∀ e ∈ exponent, e.WellFormed) ∧ c.rest = (exponent.map Exponent.text).getD [] ++ c'.rest := by
  simp only [readExponent] at h
  split at h
  next => cases h; exact ⟨by simp, rfl⟩
  next letter hpeek =>
    split at h
    case isFalse => cases h; exact ⟨by simp, rfl⟩
    case isTrue hletter =>
      split at h
      case isTrue => cases h
      case isFalse hne =>
        cases h
        obtain ⟨hsign, hrest⟩ := readSign_append c.bump
        refine ⟨by simpa using ⟨hletter, hsign, digits_of_ne_nil hne⟩, ?_⟩
        rw [rest_of_peek hpeek, hrest, digits_append (readSign c.bump).2]
        simp [Exponent.text]

theorem of_read {x : Numeral} (h : read c = .ok (x, c')) :
    x.WellFormed ∧ c.rest = x.text ++ c'.rest := by
  simp only [read] at h
  split at h
  case isTrue => cases h
  case isFalse hwhole =>
    obtain ⟨⟨fraction, c₁⟩, hfraction, h⟩ := bind_eq_ok_iff.mp h
    obtain ⟨⟨exponent, c₂⟩, hexponent, h⟩ := bind_eq_ok_iff.mp h
    cases h
    obtain ⟨hne, hzero⟩ := not_or.mp hwhole
    obtain ⟨hfraction, hrest₁⟩ := of_readFraction hfraction
    obtain ⟨hexponent, hrest₂⟩ := of_readExponent hexponent
    refine ⟨⟨digits_of_ne_nil hne, ?_, hfraction, hexponent⟩, ?_⟩
    · intro ds hds
      have hds : (Number.digits (readMinus c).2).1 = '0' :: ds := hds
      by_contra hmore
      exact hzero ⟨by rw [hds]; rfl, by rw [hds]; simpa using hmore⟩
    · rw [readMinus_append c, digits_append (readMinus c).2, hrest₁, hrest₂]
      simp [text, fractionText, exponentText]

end Numeral

/-! ## Documents -/

namespace Document

/-- A word has been read once what follows its first character has been passed. -/
theorem exists_of_word {ks b : List Char} {w d : Document} {f : Char} {c c₁ c' : Cursor}
    (hw : Says w (f :: ks)) (hb : Blank b) (hopen : c.rest = b ++ f :: c₁.bump.rest)
    (h : (do return (w, ← keyword ks c₁.bump)) = Except.ok (d, c')) :
    ∃ b t, Blank b ∧ Says d t ∧ c.rest = b ++ (t ++ c'.rest) := by
  obtain ⟨c₂, hword, h⟩ := bind_eq_ok_iff.mp h
  cases h
  exact ⟨b, _, hb, hw, by rw [hopen, rest_of_keyword hword]; rfl⟩

mutual

theorem exists_of_readValue {n : Nat} {c c' : Cursor} {d : Document}
    (h : readValue n c = .ok (d, c')) :
    ∃ b t, Blank b ∧ Says d t ∧ c.rest = b ++ (t ++ c'.rest) := by
  cases n with
  | zero => cases h
  | succ n =>
    rw [readValue] at h
    obtain ⟨⟨f, c₁⟩, hvalue, h⟩ := bind_eq_ok_iff.mp h
    obtain ⟨b, hb, hrest, hpeek⟩ := exists_of_value hvalue
    have hopen : c.rest = b ++ f :: c₁.bump.rest := by rw [hrest, rest_of_peek hpeek]
    simp only at h
    split at h
    case isTrue hf => exact exists_of_word .nullWord hb (hf ▸ hopen) h
    split at h
    case isTrue hf => exact exists_of_word .trueWord hb (hf ▸ hopen) h
    split at h
    case isTrue hf => exact exists_of_word .falseWord hb (hf ▸ hopen) h
    split at h
    case isTrue hf =>
      obtain ⟨⟨s, c₂⟩, hbody, h⟩ := bind_eq_ok_iff.mp h
      cases h
      obtain ⟨t, u, ht, rfl, hstring⟩ := Quoted.exists_of_body hbody
      exact ⟨b, _, hb, .string (by simpa using ht), by rw [hopen, hf, hstring]; simp⟩
    split at h
    case isTrue hf =>
      obtain ⟨⟨ds, c₂⟩, hvalues, h⟩ := bind_eq_ok_iff.mp h
      cases h
      obtain ⟨t, hds, hlist⟩ := exists_of_readElements hvalues
      exact ⟨b, _, hb, .array hds, by rw [hopen, hf, hlist]; simp⟩
    split at h
    case isTrue hf =>
      obtain ⟨⟨fields, c₂⟩, hfields, h⟩ := bind_eq_ok_iff.mp h
      cases h
      obtain ⟨t, hts, hobject⟩ := exists_of_readFields hfields
      exact ⟨b, _, hb, .object hts, by rw [hopen, hf, hobject]; simp⟩
    case isFalse =>
      obtain ⟨⟨x, c₂⟩, hnumber, h⟩ := bind_eq_ok_iff.mp h
      cases h
      obtain ⟨hx, htext⟩ := Numeral.of_read hnumber
      exact ⟨b, _, hb, .number hx, by rw [hrest, htext]⟩

theorem exists_of_readElements {n : Nat} {first : Bool} {c c' : Cursor} {ds : List Document}
    (h : readElements n first c = .ok (ds, c')) :
    ∃ t, Elements first ds t ∧ c.rest = t ++ c'.rest := by
  cases n with
  | zero => cases h
  | succ n =>
    rw [readElements] at h
    obtain ⟨⟨more, c₁⟩, hnext, h⟩ := bind_eq_ok_iff.mp h
    cases more with
    | false =>
      cases h
      obtain ⟨b, hb, hrest⟩ := exists_of_nextElement_close hnext
      exact ⟨_, .close hb, by rw [hrest]; simp⟩
    | true =>
      obtain ⟨⟨d, c₂⟩, hvalue, h⟩ := bind_eq_ok_iff.mp h
      obtain ⟨⟨ds, c₃⟩, hvalues, h⟩ := bind_eq_ok_iff.mp h
      cases h
      obtain ⟨l, hl, hrest⟩ := exists_of_nextElement hnext
      obtain ⟨b, t, hb, hd, hrest₁⟩ := exists_of_readValue hvalue
      obtain ⟨ts, hds, hrest₂⟩ := exists_of_readElements hvalues
      exact ⟨_, .cons (hl.append_blank hb) hd hds, by simp [hrest, hrest₁, hrest₂]⟩

theorem exists_of_readFields {n : Nat} {first : Bool} {c c' : Cursor}
    {fields : List (String × Document)} (h : readFields n first c = .ok (fields, c')) :
    ∃ t, Fields first fields t ∧ c.rest = t ++ c'.rest := by
  cases n with
  | zero => cases h
  | succ n =>
    rw [readFields] at h
    obtain ⟨⟨key, c₁⟩, hnext, h⟩ := bind_eq_ok_iff.mp h
    rcases exists_of_nextKey hnext with ⟨k, l, kt, rfl, hl, hkt, hrest⟩ | ⟨rfl, b, hb, hrest⟩
    · obtain ⟨c₂, hcolon, h⟩ := bind_eq_ok_iff.mp h
      obtain ⟨⟨d, c₃⟩, hvalue, h⟩ := bind_eq_ok_iff.mp h
      obtain ⟨⟨fields, c₄⟩, hfields, h⟩ := bind_eq_ok_iff.mp h
      cases h
      obtain ⟨b, hb, hrest₁⟩ := exists_of_colon hcolon
      obtain ⟨b', t, hb', hd, hrest₂⟩ := exists_of_readValue hvalue
      obtain ⟨ts, hts, hrest₃⟩ := exists_of_readFields hfields
      exact ⟨_, .cons hl hkt hb hb' hd hts, by simp [hrest, hrest₁, hrest₂, hrest₃]⟩
    · cases h
      exact ⟨_, .close hb, by rw [hrest]; simp⟩

end

/-- The reader reads the texts of the grammar, each as the document that it says, and no
others. -/
theorem read_eq_ok_iff {d : Document} {text : String} :
    read text = .ok d ↔ Writes d text.toList := by
  constructor
  · intro h
    obtain ⟨⟨d, c⟩, hread, h⟩ := bind_eq_ok_iff.mp h
    simp only at h
    split at h
    case isFalse => cases h
    case isTrue hend =>
      cases h
      obtain ⟨b, t, hb, hd, hrest⟩ := exists_of_readValue hread
      obtain ⟨b', hb', hrest'⟩ := exists_blank c
      rw [hend, List.append_nil] at hrest'
      rw [show text.toList = b ++ (t ++ b') by rw [← hrest']; exact hrest]
      exact .mk hb hd hb'
  · exact read_of_writes

end Document

end SourceTokens.Json

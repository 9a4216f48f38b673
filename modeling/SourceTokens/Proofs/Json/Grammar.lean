/-
# `SourceTokens.Proofs.Json.Grammar` — which texts are JSON, and what they say

`Says d t`: the characters `t` write the document `d`.  The relation is the grammar of
JSON with one constructor for each kind of value, and is what the readers and the writer
are measured by; it knows of neither.

Blanks may stand before every bracket, comma, colon and value.  The parts of a list and
of an object have one form each: `Lead` is what stands before a part, blanks before the
first and blanks around a comma before any other, so that no comma can be missing, extra
or last.

A number is kept as it is written.  An object is kept with its fields in their order,
repeated keys included; what to make of a repeated key is the reader's affair.
-/
import SourceTokens.Text.Hexadecimal

namespace SourceTokens.Json

/-- Blanks: spaces, tabs, newlines and carriage returns. -/
def Blank (b : List Char) : Prop := ∀ c ∈ b, c = ' ' ∨ c = '\n' ∨ c = '\t' ∨ c = '\r'

instance (b : List Char) : Decidable (Blank b) :=
  decidable_of_iff (b.all fun c => c == ' ' || c == '\n' || c == '\t' || c == '\r')
    (by simp [Blank, or_assoc])

theorem blank_nil : Blank [] := by simp [Blank]

theorem Blank.append {b b' : List Char} (hb : Blank b) (hb' : Blank b') : Blank (b ++ b') :=
  List.forall_mem_append.mpr ⟨hb, hb'⟩

/-! ## Strings -/

/-- The escapes of one letter. -/
inductive LetterEscape : Char → Char → Prop
  | quote : LetterEscape '"' '"'
  | backslash : LetterEscape '\\' '\\'
  | slash : LetterEscape '/' '/'
  | backspace : LetterEscape 'b' '\x08'
  | formFeed : LetterEscape 'f' '\x0c'
  | newline : LetterEscape 'n' '\n'
  | carriageReturn : LetterEscape 'r' '\r'
  | tab : LetterEscape 't' '\t'

/-- A code unit in four digits of base sixteen. -/
def FourDigits (ds : List Char) (n : Nat) : Prop :=
  ds.length = 4 ∧ Text.Hexadecimal.value? ds = some n

/-- `Spelling t c`: the characters `t` stand for the character `c` in a string. -/
inductive Spelling : List Char → Char → Prop
  | plain {c : Char} (hcontrol : 0x20 ≤ c.toNat) (hquote : c ≠ '"') (hbackslash : c ≠ '\\') :
      Spelling [c] c
  | letter {l c : Char} (h : LetterEscape l c) : Spelling ['\\', l] c
  | unit {ds : List Char} {n : Nat} (h : FourDigits ds n) (hn : n < 0xd800 ∨ 0xdfff < n) :
      Spelling ('\\' :: 'u' :: ds) (.ofNat n)
  /-- A character beyond the first plane, as a leading and a trailing surrogate. -/
  | pair {ds es : List Char} {n m : Nat} (h : FourDigits ds n) (h' : FourDigits es m)
      (hn : 0xd800 ≤ n ∧ n ≤ 0xdbff) (hm : 0xdc00 ≤ m ∧ m ≤ 0xdfff) :
      Spelling ('\\' :: 'u' :: (ds ++ '\\' :: 'u' :: es))
        (.ofNat ((n - 0xd800) * 0x400 + (m - 0xdc00) + 0x10000))

/-- `Spells t s`: the characters `t`, between quotes, write the string `s`. -/
inductive Spells : List Char → List Char → Prop
  | nil : Spells [] []
  | cons {t ts s : List Char} {c : Char} (h : Spelling t c) (hs : Spells ts s) :
      Spells (t ++ ts) (c :: s)

/-! ## Numbers -/

/-- The exponent of a number: its letter, its sign if it has one, and its digits. -/
structure Exponent where
  letter : Char
  sign : Option Char
  digits : List Char
  deriving DecidableEq, Repr

/-- A number as it is written. -/
structure Numeral where
  negative : Bool
  /-- The digits before the point. -/
  whole : List Char
  /-- The digits after the point, if there is one. -/
  fraction : Option (List Char)
  exponent : Option Exponent
  deriving DecidableEq, Repr

/-- One digit or more. -/
def Digits (ds : List Char) : Prop := ds ≠ [] ∧ ∀ d ∈ ds, d.isDigit

structure Exponent.WellFormed (e : Exponent) : Prop where
  letter : e.letter = 'e' ∨ e.letter = 'E'
  sign : ∀ s ∈ e.sign, s = '+' ∨ s = '-'
  digits : Digits e.digits

def Exponent.text (e : Exponent) : List Char := e.letter :: (e.sign.toList ++ e.digits)

namespace Numeral

/-- A zero in front stands alone. -/
structure WellFormed (x : Numeral) : Prop where
  whole : Digits x.whole
  leadingZero : ∀ ds, x.whole = '0' :: ds → ds = []
  fraction : ∀ ds ∈ x.fraction, Digits ds
  exponent : ∀ e ∈ x.exponent, e.WellFormed

def fractionText (x : Numeral) : List Char := (x.fraction.map ('.' :: ·)).getD []

def exponentText (x : Numeral) : List Char := (x.exponent.map Exponent.text).getD []

def text (x : Numeral) : List Char :=
  (if x.negative then ['-'] else []) ++ (x.whole ++ (x.fractionText ++ x.exponentText))

/-- An integer has neither a point nor an exponent. -/
def IsInteger (x : Numeral) : Prop := x.fraction = none ∧ x.exponent = none

/-- The number that the digits before the point write. -/
def magnitude (x : Numeral) : Nat := Nat.ofDigitChars 10 x.whole 0

/-- The plain way to write a natural number. -/
def ofNat (n : Nat) : Numeral := ⟨false, Nat.toDigits 10 n, none, none⟩

end Numeral

/-! ## Documents -/

/-- What a text can say. -/
inductive Document
  | null
  | boolean (b : Bool)
  | number (x : Numeral)
  | string (s : String)
  | array (ds : List Document)
  | object (fields : List (String × Document))

/-- What stands before a part of a list or of an object. -/
inductive Lead : Bool → List Char → Prop
  | first {b : List Char} (h : Blank b) : Lead true b
  | later {b b' : List Char} (h : Blank b) (h' : Blank b') : Lead false (b ++ ',' :: b')

mutual

/-- `Says d t`: the characters `t`, with no blanks around them, write the document. -/
inductive Says : Document → List Char → Prop
  | nullWord : Says .null ['n', 'u', 'l', 'l']
  | trueWord : Says (.boolean true) ['t', 'r', 'u', 'e']
  | falseWord : Says (.boolean false) ['f', 'a', 'l', 's', 'e']
  | number {x : Numeral} (h : x.WellFormed) : Says (.number x) x.text
  | string {s : String} {t : List Char} (h : Spells t s.toList) :
      Says (.string s) ('"' :: (t ++ ['"']))
  | array {ds : List Document} {t : List Char} (h : Elements true ds t) :
      Says (.array ds) ('[' :: t)
  | object {fields : List (String × Document)} {t : List Char} (h : Fields true fields t) :
      Says (.object fields) ('\x7b' :: t)

/-- The elements of a list that are left, through its closing bracket. -/
inductive Elements : Bool → List Document → List Char → Prop
  | close {first : Bool} {b : List Char} (hb : Blank b) : Elements first [] (b ++ [']'])
  | cons {first : Bool} {d : Document} {ds : List Document} {l t ts : List Char}
      (hl : Lead first l) (hd : Says d t) (hds : Elements false ds ts) :
      Elements first (d :: ds) (l ++ (t ++ ts))

/-- The fields of an object that are left, through its closing brace. -/
inductive Fields : Bool → List (String × Document) → List Char → Prop
  | close {first : Bool} {b : List Char} (hb : Blank b) : Fields first [] (b ++ ['\x7d'])
  | cons {first : Bool} {k : String} {d : Document} {fields : List (String × Document)}
      {l kt b b' t ts : List Char} (hl : Lead first l) (hk : Spells kt k.toList)
      (hb : Blank b) (hb' : Blank b') (hd : Says d t) (hfields : Fields false fields ts) :
      Fields first ((k, d) :: fields)
        (l ++ '"' :: (kt ++ '"' :: (b ++ ':' :: (b' ++ (t ++ ts)))))

end

/-! ## How values begin and what may follow them -/

/-- A text that does not carry on a number that stands before it. -/
def EndsNumeral (r : List Char) : Prop :=
  ∀ d ∈ r.head?, d.isDigit = false ∧ d ≠ '.' ∧ d ≠ 'e' ∧ d ≠ 'E'

variable {b r t : List Char}

theorem endsNumeral_cons {d : Char}
    (h : d.isDigit = false ∧ d ≠ '.' ∧ d ≠ 'e' ∧ d ≠ 'E') : EndsNumeral (d :: r) := by
  simpa [EndsNumeral] using h

theorem EndsNumeral.blank_append (hb : Blank b) (hr : EndsNumeral r) : EndsNumeral (b ++ r) := by
  cases b with
  | nil => exact hr
  | cons d b =>
    refine endsNumeral_cons ?_
    rcases hb d (by simp) with rfl | rfl | rfl | rfl <;> decide

theorem endsNumeral_of_blank (hb : Blank b) : EndsNumeral b := by
  simpa using EndsNumeral.blank_append hb (r := []) (by simp [EndsNumeral])

theorem Lead.append_blank {first : Bool} {l : List Char} (hl : Lead first l) (hb : Blank b) :
    Lead first (l ++ b) := by
  cases hl with
  | first h => exact .first (h.append hb)
  | later h h' =>
    rw [List.append_assoc, List.cons_append]
    exact .later h (h'.append hb)

theorem Lead.endsNumeral_append {l : List Char} (hl : Lead false l) : EndsNumeral (l ++ r) := by
  cases hl with
  | later hb =>
    rw [List.append_assoc]
    exact (endsNumeral_cons (by decide)).blank_append hb

theorem Elements.ne_nil {first : Bool} {ds : List Document} (h : Elements first ds t) :
    t ≠ [] := by
  induction ds generalizing first t with
  | nil => cases h; simp
  | cons d ds ih =>
    cases h with
    | cons hl hd hds => simp [ih hds]

theorem Elements.endsNumeral_append {ds : List Document} (h : Elements false ds t) :
    EndsNumeral (t ++ r) := by
  cases h with
  | close hb =>
    rw [List.append_assoc]
    exact (endsNumeral_cons (by decide)).blank_append hb
  | cons hl =>
    rw [List.append_assoc]
    exact hl.endsNumeral_append

theorem Fields.endsNumeral_append {fields : List (String × Document)}
    (h : Fields false fields t) : EndsNumeral (t ++ r) := by
  cases h with
  | close hb =>
    rw [List.append_assoc]
    exact (endsNumeral_cons (by decide)).blank_append hb
  | cons hl =>
    rw [List.append_assoc]
    exact hl.endsNumeral_append

/-- A number begins with its sign or with a digit. -/
theorem Numeral.WellFormed.exists_cons {x : Numeral} (h : x.WellFormed) :
    ∃ d t, x.text = d :: t ∧ (d = '-' ∨ d.isDigit) := by
  obtain ⟨hne, hdigits⟩ := h.whole
  obtain ⟨d, ds, hds⟩ := List.exists_cons_of_ne_nil hne
  rw [Numeral.text, hds]
  cases x.negative with
  | true => exact ⟨'-', _, rfl, .inl rfl⟩
  | false => exact ⟨d, _, rfl, .inr (hdigits d (by simp [hds]))⟩

/-- The first character tells a number from a value of any other kind. -/
theorem Numeral.WellFormed.first_ne {x : Numeral} {f : Char} (h : x.WellFormed)
    (htext : x.text = f :: t) :
    f ≠ 'n' ∧ f ≠ 't' ∧ f ≠ 'f' ∧ f ≠ '"' ∧ f ≠ '[' ∧ f ≠ '\x7b' := by
  obtain ⟨d, u, hd, hdigit⟩ := h.exists_cons
  obtain ⟨rfl, -⟩ := List.cons.inj (htext.symm.trans hd)
  refine ⟨?_, ?_, ?_, ?_, ?_, ?_⟩ <;> (rintro rfl; revert hdigit; decide)

theorem not_blank_of_isDigit {d : Char} (h : d = '-' ∨ d.isDigit) : ¬ Blank [d] ∧ d ≠ ']' := by
  constructor
  · intro hblank
    rcases hblank d (by simp) with rfl | rfl | rfl | rfl <;> revert h <;> decide
  · rintro rfl
    revert h
    decide

theorem Says.exists_cons {d : Document} (h : Says d t) :
    ∃ c r, t = c :: r ∧ ¬ Blank [c] ∧ c ≠ ']' := by
  cases h with
  | number h =>
    obtain ⟨c, r, htext, hc⟩ := h.exists_cons
    exact ⟨c, r, htext, not_blank_of_isDigit hc⟩
  | nullWord | trueWord | falseWord | string | array | object =>
    exact ⟨_, _, rfl, by decide, by decide⟩

theorem Says.ne_nil {d : Document} (h : Says d t) : t ≠ [] := by
  obtain ⟨c, r, rfl, -⟩ := h.exists_cons
  simp

/-- A whole text: a document with blanks around it. -/
inductive Writes (d : Document) : List Char → Prop
  | mk {b t b' : List Char} (hb : Blank b) (hd : Says d t) (hb' : Blank b') :
      Writes d (b ++ (t ++ b'))

end SourceTokens.Json

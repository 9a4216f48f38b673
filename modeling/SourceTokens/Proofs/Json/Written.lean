/-
# `SourceTokens.Proofs.Json.Written` — what is written is JSON

A value is written as a text that says it (`Value.says_write`), in any layout that puts
nothing but blanks before the parts and brackets, and a colon with blanks behind it after
the keys.  Both layouts of values do so.

Strings carry the weight: whatever their characters are, what is written of each is a
spelling of it (`Quoted.spelling_encodeChar`).
-/
import Mathlib.Data.List.Basic
import SourceTokens.Json.Value
import SourceTokens.Proofs.Json.Grammar

namespace SourceTokens.Json

/-! ## Strings -/

namespace Quoted

theorem fourDigits_control : ∀ n < 0x20,
    FourDigits (['0', '0', if n < 16 then '0' else '1'] ++ Text.Hexadecimal.digits (n % 16)) n := by
  simp only [FourDigits]
  decide

theorem spelling_encodeControl {c : Char} (hc : c.toNat < 0x20) : Spelling (encodeControl c) c := by
  rw [encodeControl.eq_def]
  split
  case h_1 => exact .letter .backspace
  case h_2 => exact .letter .formFeed
  case h_3 => exact .letter .newline
  case h_4 => exact .letter .carriageReturn
  case h_5 => exact .letter .tab
  case h_6 =>
    have hunit := Spelling.unit (fourDigits_control c.toNat hc) (.inl (by omega))
    rwa [Char.ofNat_toNat] at hunit

theorem spelling_encodeChar (c : Char) : Spelling (encodeChar c) c := by
  rw [encodeChar]
  split
  case isTrue h => subst h; exact .letter .quote
  case isFalse hquote =>
    split
    case isTrue h => subst h; exact .letter .backslash
    case isFalse hbackslash =>
      split
      case isTrue hcontrol => exact spelling_encodeControl hcontrol
      case isFalse hcontrol => exact .plain (Nat.not_lt.mp hcontrol) hquote hbackslash

theorem spells_encode (cs : List Char) : Spells (cs.flatMap encodeChar) cs := by
  induction cs with
  | nil => exact .nil
  | cons c cs ih => exact .cons (spelling_encodeChar c) ih

theorem says_encode (s : String) : Says (.string s) (encode s).toList := by
  simpa [encode] using Says.string (spells_encode s.toList)

end Quoted

/-! ## Numbers -/

theorem digits_toDigits (n : Nat) : Digits (Nat.toDigits 10 n) :=
  ⟨Nat.toDigits_ne_nil, fun _ hd => Nat.isDigit_of_mem_toDigits (by decide) (by decide) hd⟩

/-- Only zero is written with a zero in front. -/
theorem toDigits_leadingZero {n : Nat} {ds : List Char} (h : Nat.toDigits 10 n = '0' :: ds) :
    ds = [] := by
  induction n using Nat.strongRecOn generalizing ds with
  | ind n ih =>
    rw [Nat.toDigits_eq_if (by decide)] at h
    split at h
    case isTrue => exact (List.cons.inj h).2.symm
    case isFalse hn =>
      obtain ⟨d, ds', hfront⟩ := List.exists_cons_of_ne_nil (Nat.toDigits_ne_nil (n := n / 10))
      obtain rfl : d = '0' := by
        rw [hfront] at h
        exact (List.cons.inj h).1
      -- the digits before the last are those of zero, and there is no such number
      have hzero : Nat.toDigits 10 (n / 10) = ['0'] := by
        rw [hfront, ih (n / 10) (by omega) hfront]
      have hvalue := congrArg (Nat.ofDigitChars 10 · 0) hzero
      simp only [Nat.ofDigitChars_ten_toDigits] at hvalue
      have : n / 10 = 0 := hvalue
      omega

theorem wellFormed_ofNat (n : Nat) : (Numeral.ofNat n).WellFormed where
  whole := digits_toDigits n
  leadingZero _ h := toDigits_leadingZero h
  fraction := by simp [Numeral.ofNat]
  exponent := by simp [Numeral.ofNat]

theorem says_natural (n : Nat) : Says (.number (.ofNat n)) (toString n).toList := by
  have htext : (Numeral.ofNat n).text = (toString n).toList := by
    simp [Numeral.ofNat, Numeral.text, Numeral.fractionText, Numeral.exponentText]
  exact htext ▸ .number (wellFormed_ofNat n)

/-! ## Values -/

namespace Value

mutual

/-- What a value says. -/
def document : Value → Document
  | null => .null
  | boolean b => .boolean b
  | natural n => .number (.ofNat n)
  | string s => .string s
  | array vs => .array (documents vs)
  | object fields => .object (fieldDocuments fields)

def documents : List Value → List Document
  | [] => []
  | v :: vs => v.document :: documents vs

def fieldDocuments : List (String × Value) → List (String × Document)
  | [] => []
  | (k, v) :: fields => (k, v.document) :: fieldDocuments fields

end

theorem documents_eq_map (vs : List Value) : documents vs = vs.map document := by
  induction vs with
  | nil => rfl
  | cons v vs ih => simp [documents, ih]

theorem fieldDocuments_eq_map (fields : List (String × Value)) :
    fieldDocuments fields = fields.map fun f => (f.1, f.2.document) := by
  induction fields with
  | nil => rfl
  | cons f fields ih => simp [fieldDocuments, ih]

/-- A layout that adds nothing to what is written. -/
structure Layout.IsBlank (l : Layout) : Prop where
  before : ∀ depth, Blank (l.before depth).toList
  closing : ∀ depth, Blank (l.closing depth).toList
  afterKey : ∃ b, Blank b ∧ l.afterKey.toList = ':' :: b

theorem Layout.isBlank_compact : Layout.compact.IsBlank where
  before _ := blank_nil
  closing _ := blank_nil
  afterKey := ⟨[], blank_nil, rfl⟩

theorem Layout.isBlank_indented : Layout.indented.IsBlank := by
  have hline : ∀ n, Blank ("\n" ++ String.ofList (List.replicate n ' ')).toList := by
    intro n
    simp [Blank]
  exact ⟨fun _ => hline _, fun _ => hline _, [' '], by decide, rfl⟩

variable {l : Layout}

mutual

theorem says_write (hl : l.IsBlank) (depth : Nat) :
    (v : Value) → Says v.document (v.write l depth).toList
  | null => by rw [write, document]; exact .nullWord
  | boolean true => by rw [write, document]; exact .trueWord
  | boolean false => by rw [write, document]; exact .falseWord
  | natural n => says_natural n
  | string s => Quoted.says_encode s
  | array [] => by rw [write, document]; exact .array (.close blank_nil)
  | array (v :: vs) => by
    have hv := says_write hl (depth + 1) v
    have hvs := elements_writeRest hl depth vs
    simpa [write, document, documents] using
      Says.array (.cons (.first (hl.before depth)) hv hvs)
  | object [] => by rw [write, document]; exact .object (.close blank_nil)
  | object ((k, v) :: fields) => by
    have hv := says_write hl (depth + 1) v
    have hfields := fields_writeFields hl depth fields
    obtain ⟨b, hb, hafter⟩ := hl.afterKey
    simpa [write, document, fieldDocuments, Quoted.encode, hafter] using
      Says.object (.cons (.first (hl.before depth)) (Quoted.spells_encode k.toList) blank_nil hb
        hv hfields)

theorem elements_writeRest (hl : l.IsBlank) (depth : Nat) :
    (vs : List Value) → Elements false (documents vs)
      ((writeRest l depth vs).toList ++ ((l.closing depth).toList ++ [']']))
  | [] => .close (hl.closing depth)
  | v :: vs => by
    have hv := says_write hl (depth + 1) v
    have hvs := elements_writeRest hl depth vs
    simpa [writeRest, documents] using
      Elements.cons (.later blank_nil (hl.before depth)) hv hvs

theorem fields_writeFields (hl : l.IsBlank) (depth : Nat) :
    (fields : List (String × Value)) → Fields false (fieldDocuments fields)
      ((writeFields l depth fields).toList ++ ((l.closing depth).toList ++ ['\x7d']))
  | [] => .close (hl.closing depth)
  | (k, v) :: fields => by
    have hv := says_write hl (depth + 1) v
    have hfields := fields_writeFields hl depth fields
    obtain ⟨b, hb, hafter⟩ := hl.afterKey
    simpa [writeFields, fieldDocuments, Quoted.encode, hafter] using
      Fields.cons (.later blank_nil (hl.before depth)) (Quoted.spells_encode k.toList) blank_nil hb
        hv hfields

end

end Value

end SourceTokens.Json

/-
# `SourceTokens.Scanner` — a cursor in a text

A scanner is a text with a cursor, kept as the characters on either side of it.
It matches expressions at the cursor or from there on, and what it matches
against is always the text ahead alone: an expression sees nothing of what the
cursor has passed.

Every operation that moves the cursor moves it forward, over what it returns.
At the end of the text, matching and searching fail, even for an expression that
matches the empty text.
-/
import SourceTokens.Regex.Progress
import SourceTokens.Text.Quoted

namespace SourceTokens

/-- A cursor in a text: the characters passed, nearest first, and those ahead. -/
structure Scanner where
  passed : List Char
  rest : List Char
  deriving DecidableEq, Repr

namespace Scanner

/-- The cursor before the first character. -/
def ofText (text : List Char) : Scanner := ⟨[], text⟩

/-- The whole text. -/
def text (s : Scanner) : List Char := s.passed.reverse ++ s.rest

/-- The number of octets that characters take in UTF-8. -/
def octets (cs : List Char) : Nat := cs.foldr (fun c n => c.utf8Size + n) 0

/-- The offset of the cursor, in octets. -/
def pos (s : Scanner) : Nat := octets s.passed

def atEnd (s : Scanner) : Bool := s.rest.isEmpty

/-- Whether the cursor stands at the start of a line: at the start of the text, or
after a newline that is not itself the first character of the text. -/
def atLineStart (s : Scanner) : Bool :=
  match s.passed with
  | [] => true
  | [_] => false
  | c :: _ :: _ => c == '\n'

/-- Move to a place of the text ahead, and give the characters passed over. -/
def advance (s : Scanner) (p : Regex.Point) : List Char × Scanner :=
  (p.passed, ⟨p.past ++ s.passed, p.ahead⟩)

/-- Match at the cursor. -/
def scan (s : Scanner) (r : Regex) : Option (List Char × Scanner) :=
  if s.atEnd then none else (r.matchAt (.start s.rest)).map s.advance

/-- Search from the cursor on, and pass everything through the end of the match. -/
def scanUntil (s : Scanner) (r : Regex) : Option (List Char × Scanner) :=
  if s.atEnd then none else (r.find (.start s.rest)).map s.advance

/-- Search as `scanUntil` does, for the number of octets passed. -/
def skipUntil (s : Scanner) (r : Regex) : Option (Nat × Scanner) :=
  (s.scanUntil r).map fun (cs, t) => (octets cs, t)

/-- Take one character. -/
def getChar (s : Scanner) : Option (Char × Scanner) :=
  match s.rest with
  | [] => none
  | c :: rest => some (c, ⟨c :: s.passed, rest⟩)

/-- Up to `n` characters ahead. -/
def peek (s : Scanner) (n : Nat) : List Char := s.rest.take n

/-- The cursor at the end of the text. -/
def terminate (s : Scanner) : Scanner := ⟨s.rest.reverse ++ s.passed, []⟩

/-- The scanner as it is shown to a programmer. -/
def debug (s : Scanner) : String :=
  "Scanner \x7b text: " ++ String.ofList (Text.Quoted.encode s.text) ++
    ", pos: " ++ toString s.pos ++ " \x7d"

/-! ## Moving without an answer -/

/-- Past the match at the cursor, if there is one. -/
def pass (s : Scanner) (r : Regex) : Scanner := ((s.scan r).map (·.2)).getD s

/-- Past the next match, if there is one. -/
def passUntil (s : Scanner) (r : Regex) : Scanner :=
  ((s.scanUntil r).map (·.2)).getD s

/-- Past the next match, or to the end of the text. -/
def passUntilOrEnd (s : Scanner) (r : Regex) : Scanner :=
  ((s.scanUntil r).map (·.2)).getD s.terminate

/-- Past one character, if there is one. -/
def passChar (s : Scanner) : Scanner := (s.getChar.map (·.2)).getD s

/-! ## What is left to read -/

theorem length_rest_le_of_scan {s t : Scanner} {r : Regex} {cs : List Char}
    (h : s.scan r = some (cs, t)) : t.rest.length ≤ s.rest.length := by
  rw [scan] at h
  split at h
  · simp at h
  · obtain ⟨p, hp, ht⟩ := Option.map_eq_some_iff.mp h
    obtain ⟨w, hw, _⟩ := Regex.matchAt_reaches hp
    simp only [advance, Prod.mk.injEq] at ht
    simp only [Regex.Point.ahead_start] at hw
    simp [← ht.2, hw]

theorem length_rest_lt_of_scan {s t : Scanner} {r : Regex} {cs : List Char}
    (hr : r.nullable = false) (h : s.scan r = some (cs, t)) :
    t.rest.length < s.rest.length := by
  rw [scan] at h
  split at h
  · simp at h
  · obtain ⟨p, hp, ht⟩ := Option.map_eq_some_iff.mp h
    have := Regex.ahead_lt_of_mem_ends hr (List.mem_of_mem_head? hp)
    simp only [advance, Prod.mk.injEq] at ht
    simpa [← ht.2] using this

theorem length_rest_le_of_scanUntil {s t : Scanner} {r : Regex} {cs : List Char}
    (h : s.scanUntil r = some (cs, t)) : t.rest.length ≤ s.rest.length := by
  rw [scanUntil] at h
  split at h
  · simp at h
  · obtain ⟨p, hp, ht⟩ := Option.map_eq_some_iff.mp h
    obtain ⟨w, hw, _⟩ := Regex.find_reaches hp
    simp only [advance, Prod.mk.injEq] at ht
    simp only [Regex.Point.ahead_start] at hw
    simp [← ht.2, hw]

theorem length_rest_passUntil_le (s : Scanner) (r : Regex) :
    (s.passUntil r).rest.length ≤ s.rest.length := by
  rw [passUntil]
  cases h : s.scanUntil r with
  | none => simp
  | some a => simpa using length_rest_le_of_scanUntil h

theorem length_rest_passUntilOrEnd_le (s : Scanner) (r : Regex) :
    (s.passUntilOrEnd r).rest.length ≤ s.rest.length := by
  rw [passUntilOrEnd]
  cases h : s.scanUntil r with
  | none => simp [terminate]
  | some a => simpa using length_rest_le_of_scanUntil h

theorem length_rest_passChar_le (s : Scanner) :
    s.passChar.rest.length ≤ s.rest.length := by
  rw [passChar, getChar]
  split <;> simp_all

theorem length_rest_passChar_lt {s : Scanner} (h : s.rest ≠ []) :
    s.passChar.rest.length < s.rest.length := by
  rw [passChar, getChar]
  split <;> simp_all

end Scanner

end SourceTokens

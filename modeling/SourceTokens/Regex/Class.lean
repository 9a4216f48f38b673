/-
# `SourceTokens.Regex.Class` — classes of characters

What one step of a pattern may read: a range, one of the three named kinds, and
what union, intersection and complement make of them.  The three kinds are those
of Unicode; a pattern may ask for their ASCII part, and it has names for fourteen
more classes of ASCII.  The token grammar spells its own classes out as ranges.
-/
import SourceTokens.Text.Property.WhiteSpace
import SourceTokens.Text.Property.DecimalDigit
import SourceTokens.Text.Property.WordCharacter

namespace SourceTokens.Regex

/-- The kinds that a pattern writes `\d`, `\s` and `\w`. -/
inductive Kind
  | digit
  | space
  | word
  deriving DecidableEq, Repr

def Kind.contains : Kind → Char → Bool
  | .digit => Text.isDecimalDigit
  | .space => Text.isWhiteSpace
  | .word => Text.isWordCharacter

/-- A set of characters, as a pattern builds it. -/
inductive Class
  | nothing
  | range (lo hi : Char)
  | kind (k : Kind)
  | union (a b : Class)
  | inter (a b : Class)
  | compl (a : Class)
  deriving DecidableEq, Repr

namespace Class

/-- Whether the class holds the character. -/
def contains : Class → Char → Bool
  | nothing, _ => false
  | range lo hi, c => decide (lo ≤ c) && decide (c ≤ hi)
  | kind k, c => k.contains c
  | union a b, c => a.contains c || b.contains c
  | inter a b, c => a.contains c && b.contains c
  | compl a, c => !a.contains c

/-- The class of one character. -/
def char (c : Char) : Class := range c c

/-- The union of several classes. -/
def unions (as : List Class) : Class := as.foldl union nothing

/-- The class of the characters of a list. -/
def ofList (cs : List Char) : Class := unions (cs.map char)

/-- What one class holds and the other does not. -/
def diff (a b : Class) : Class := inter a (compl b)

/-- What exactly one of two classes holds. -/
def symmDiff (a b : Class) : Class := union (diff a b) (diff b a)

/-- Every character. -/
def any : Class := compl nothing

/-- Every character but the newline: what a pattern writes `.`. -/
def notNewline : Class := compl (char '\n')

/-- Every character but the two that end lines. -/
def notLineEnd : Class := compl (ofList ['\r', '\n'])

/-- The class with all characters that differ from one of its own in case only.  The
lists are of characters that do. -/
def withCases (orbits : List (List Char)) (a : Class) : Class :=
  union a (unions ((orbits.filter (·.any a.contains)).map ofList))

/-! ## ASCII -/

/-- The letters of either case, each with its other case. -/
def asciiOrbits : List (List Char) :=
  (List.range 26).map fun n => [.ofNat ('A'.toNat + n), .ofNat ('a'.toNat + n)]

def asciiDigit : Class := range '0' '9'

def asciiUpper : Class := range 'A' 'Z'

def asciiLower : Class := range 'a' 'z'

def asciiAlpha : Class := union asciiUpper asciiLower

def asciiAlnum : Class := union asciiDigit asciiAlpha

def asciiWord : Class := union asciiAlnum (char '_')

def asciiSpace : Class := ofList ['\t', '\n', '\x0b', '\x0c', '\r', ' ']

/-- The classes that a pattern names between `[:` and `:]`. -/
def named : List (String × Class) := [
  ("alnum", asciiAlnum),
  ("alpha", asciiAlpha),
  ("ascii", range '\x00' '\x7f'),
  ("blank", ofList ['\t', ' ']),
  ("cntrl", union (range '\x00' '\x1f') (char '\x7f')),
  ("digit", asciiDigit),
  ("graph", range '!' '~'),
  ("lower", asciiLower),
  ("print", range ' ' '~'),
  ("punct", unions [range '!' '/', range ':' '@', range '[' '\x60', range '\x7b' '~']),
  ("space", asciiSpace),
  ("upper", asciiUpper),
  ("word", asciiWord),
  ("xdigit", unions [asciiDigit, range 'A' 'F', range 'a' 'f'])]

/-! ## What a class holds -/

theorem contains_char {a c : Char} : (char a).contains c = decide (c = a) := by
  simp only [char, contains, ← Bool.decide_and]
  exact decide_eq_decide.mpr
    ⟨fun h => Char.le_antisymm h.2 h.1, fun h => h ▸ ⟨Char.le_refl _, Char.le_refl _⟩⟩

theorem contains_unions (as : List Class) (c : Char) :
    (unions as).contains c = as.any (·.contains c) := by
  suffices h : ∀ a : Class, (as.foldl union a).contains c
      = (a.contains c || as.any (·.contains c)) by simp [unions, h, contains]
  induction as with
  | nil => simp
  | cons b as ih => simp [ih, contains, Bool.or_assoc]

theorem contains_ofList (cs : List Char) (c : Char) :
    (ofList cs).contains c = decide (c ∈ cs) := by
  rw [Bool.eq_iff_iff]
  simp [ofList, contains_unions, contains_char]

theorem contains_notNewline (c : Char) :
    notNewline.contains c = decide (c ≠ '\n') := by
  simp [notNewline, contains, contains_char]

end Class

/-- The ASCII part of a kind. -/
def Kind.ascii : Kind → Class
  | .digit => .asciiDigit
  | .space => .asciiSpace
  | .word => .asciiWord

end SourceTokens.Regex

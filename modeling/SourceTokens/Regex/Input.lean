/-
# `SourceTokens.Regex.Input` — reading off the front of a pattern

A reader takes something off the front of a text, or says what is wrong with it.  What it
leaves is a rest of the text, which a reading holds the proof of.

In a verbose pattern, blanks and comments may stand almost anywhere.  A comment begins with
a number sign and goes through the end of its line, or of the text.
-/
import SourceTokens.Text.Property.WhiteSpace

namespace SourceTokens.Regex

/-- Why a text is no pattern. -/
inductive Malformed
  | unopenedGroup
  | unclosedGroup
  /-- A group that would look ahead or behind. -/
  | lookAround
  | badGroupName
  | repeatedGroupName
  | badFlags
  | unopenedClass
  | unclosedClass
  | badRange
  | assertionInClass
  | nothingToRepeat
  | badRepetition
  | badEscape
  | unknownProperty
  /-- Something that is held to ASCII and is not ASCII. -/
  | beyondAscii
  deriving DecidableEq, Repr

/-! ## Blanks and comments -/

/-- What is behind the blanks and comments at the front of a text.  The front is inside a
comment if `comment` holds. -/
def pastBlanks : (comment : Bool) → List Char → List Char
  | _, [] => []
  | true, c :: s => pastBlanks (c ≠ '\n') s
  | false, c :: s =>
    if Text.isWhiteSpace c then pastBlanks false s
    else if c = '#' then pastBlanks true s
    else c :: s

/-- Whether the text is blanks and comments, and the last comment goes through its end. -/
def isRemark : (comment : Bool) → List Char → Bool
  | comment, [] => comment
  | true, c :: s => isRemark (c ≠ '\n') s
  | false, c :: s =>
    if Text.isWhiteSpace c then isRemark false s
    else if c = '#' then isRemark true s
    else false

/-- What is behind the blanks and comments, in a pattern that may have them. -/
def skip (verbose : Bool) (s : List Char) : List Char :=
  if verbose then pastBlanks false s else s

/-- Whether nothing is left but a comment that goes through the end, in a pattern that may
have comments. -/
def endsInRemark (verbose : Bool) (s : List Char) : Bool := verbose && isRemark false s

theorem pastBlanks_suffix (comment : Bool) (s : List Char) : pastBlanks comment s <:+ s := by
  fun_induction pastBlanks comment s with
  | case1 => exact List.nil_suffix
  | case2 c s ih => exact ih.trans (List.suffix_cons c s)
  | case3 c s _ ih => exact ih.trans (List.suffix_cons c s)
  | case4 s _ ih => exact ih.trans (List.suffix_cons '#' s)
  | case5 => exact List.suffix_refl _

theorem skip_suffix (verbose : Bool) (s : List Char) : skip verbose s <:+ s := by
  cases verbose with
  | true => exact pastBlanks_suffix false s
  | false => exact List.suffix_refl s

theorem suffix_of_skip {verbose : Bool} {c : Char} {s t : List Char}
    (h : skip verbose s = c :: t) : t <:+ s :=
  (List.suffix_cons c t).trans (h ▸ skip_suffix verbose s)

/-! ## Readers -/

/-- Something read off the front of `s`, and what is left. -/
structure Reading (α : Type) (s : List Char) where
  value : α
  rest : List Char
  suffix : rest <:+ s

namespace Reading

variable {α : Type} {s t : List Char}

/-- The reading, preceded by what stands before `t`. -/
def behind (h : t <:+ s) (r : Reading α t) : Reading α s := ⟨r.value, r.rest, r.suffix.trans h⟩

end Reading

/-- What takes an `α` off the front of a text. -/
def Reader (α : Type) : Type := (s : List Char) → Except Malformed (Reading α s)

instance : Monad Reader where
  pure a := fun s => .ok ⟨a, s, List.suffix_refl s⟩
  bind r f := fun s => do
    let p ← r s
    let q ← f p.value p.rest
    return q.behind p.suffix

namespace Reader

variable {α : Type}

def fail (e : Malformed) : Reader α := fun _ => .error e

/-- The next character, which has to be there. -/
def next (e : Malformed) : Reader Char
  | [] => .error e
  | c :: s => .ok ⟨c, s, List.suffix_cons c s⟩

/-- The next character, which has to be there and is left. -/
def peek (e : Malformed) : Reader Char
  | [] => .error e
  | c :: s => .ok ⟨c, c :: s, List.suffix_refl _⟩

/-- Pass over blanks and comments, after which there has to be something. -/
def blanks (verbose : Bool) (e : Malformed) : Reader Unit := fun s =>
  if skip verbose s = [] then .error e
  else .ok ⟨(), skip verbose s, skip_suffix verbose s⟩

/-- The value of an option, if there is one. -/
def ofOption (e : Malformed) : Option α → Reader α
  | some a => pure a
  | none => fail e

/-- The next `n` characters between blanks and comments. -/
def gather (verbose : Bool) (e : Malformed) : Nat → Reader (List Char)
  | 0 => pure []
  | n + 1 => do
    blanks verbose e
    let c ← next e
    return c :: (← gather verbose e n)

/-- The characters between blanks and comments through a closing brace, which is left
out. -/
def upToBrace (verbose : Bool) (e : Malformed) : Reader (List Char) := fun s =>
  match h : skip verbose s with
  | [] => .error e
  | c :: t =>
    if c = '\x7d' then .ok ⟨[], t, suffix_of_skip h⟩
    else do
      let r ← upToBrace verbose e t
      return ⟨c :: r.value, r.rest, r.suffix.trans (suffix_of_skip h)⟩
termination_by s => s.length
decreasing_by
  have hle := (h ▸ skip_suffix verbose s).length_le
  exact hle

end Reader

end SourceTokens.Regex

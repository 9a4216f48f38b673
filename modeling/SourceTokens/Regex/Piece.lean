/-
# `SourceTokens.Regex.Piece` — the units of a pattern text

A pattern text is cut into literals, classes, brackets, bars, repetition marks and changes
of flags, each read to its own end.  How a piece is read hangs on little of what stands
before it: whether the pattern is verbose there, and whether a bracketed class is open
(`Mode`).  What the pieces mean together is settled after that, in
`SourceTokens.Regex.Assembly`.

Comments are no pieces.  Of a comment that runs to the end of the text, though, a note is
taken, since what is put behind such a text is in the comment.
-/
import SourceTokens.Regex.Basic
import SourceTokens.Regex.Flags
import SourceTokens.Regex.Input
import SourceTokens.Text.Hexadecimal
import SourceTokens.Text.Property.Alphabetic
import SourceTokens.Text.Property.Numeric

namespace SourceTokens.Regex

/-! ## What a piece can be -/

/-- A condition on a place, as it is written. -/
inductive Look
  /-- `^` -/
  | lineStart
  /-- `$` -/
  | lineEnd
  | textStart
  | textEnd
  | word (b : WordBoundary)
  deriving DecidableEq, Repr

/-- A class of Unicode by its name, or by the name and the value of a property. -/
inductive Property
  | letter (c : Char)
  | named (name : List Char)
  | valued (name value : List Char)
  deriving DecidableEq, Repr

/-- A part of a pattern that has no parts. -/
inductive Atom
  /-- A character.  It is given as an octet if it is written `\x` and two digits. -/
  | literal (c : Char) (octet : Bool)
  /-- `.` -/
  | dot
  | kind (k : Kind) (negated : Bool)
  | property (p : Property) (negated : Bool)
  | look (l : Look)
  deriving DecidableEq, Repr

/-- A part of a bracketed class. -/
inductive ClassItem
  | atom (a : Atom)
  | range (lo hi : Atom)
  | named (a : Class) (negated : Bool)
  deriving DecidableEq, Repr

/-- An operator between the operands of a class. -/
inductive ClassOperator
  | inter
  | diff
  | symmDiff
  deriving DecidableEq, Repr

/-- The units of a pattern text. -/
inductive Piece
  | atom (a : Atom)
  /-- The bracket of a group, which may have a name or change flags. -/
  | opening (name : Option (List Char)) (change : FlagChange)
  | closing
  | bar
  | times (lo : Nat) (hi : Option Nat) (lazy : Bool)
  | flags (change : FlagChange)
  /-- The bracket of a class, and the characters that stand there for themselves. -/
  | classOpening (negated : Bool) (cs : List Char)
  | classClosing
  | classItem (i : ClassItem)
  | classOperator (o : ClassOperator)
  deriving DecidableEq, Repr

/-! ## Escapes -/

/-- The character whose number the digits write, if they write one. -/
def ofHexDigits? (ds : List Char) : Option Char := do
  guard (ds ≠ [])
  let n ← Text.Hexadecimal.value? ds
  if n.isValidChar then some (.ofNat n) else none

/-- A character by number, as so many digits or as any number between braces. -/
def hexEscape (verbose : Bool) (width : Nat) : Reader Atom := do
  .blanks verbose .badEscape
  if (← .peek .badEscape) = '\x7b' then
    let _ ← .next .badEscape
    let ds ← .upToBrace verbose .badEscape
    return .literal (← .ofOption .badEscape (ofHexDigits? ds)) false
  else
    let ds ← .gather verbose .badEscape width
    return .literal (← .ofOption .badEscape (ofHexDigits? ds)) (width = 2)

/-- What stands before and behind the first occurrence of `sep`. -/
def cut? (sep : List Char) : List Char → Option (List Char × List Char)
  | [] => none
  | c :: s =>
    if sep.isPrefixOf (c :: s) then some ([], (c :: s).drop sep.length)
    else (cut? sep s).map fun (before, behind) => (c :: before, behind)

/-- The property that stands between braces, and whether it is one that is not to hold. -/
def Property.ofText (s : List Char) : Property × Bool :=
  match cut? ['!', '='] s with
  | some (name, value) => (.valued name value, true)
  | none =>
    match (cut? [':'] s).or (cut? ['='] s) with
    | some (name, value) => (.valued name value, false)
    | none => (.named s, false)

/-- A class of Unicode, as one character or between braces. -/
def propertyEscape (verbose negated : Bool) : Reader Atom := do
  .blanks verbose .badEscape
  let c ← .next .badEscape
  if c = '\x7b' then
    let (p, differs) := Property.ofText (← .upToBrace verbose .badEscape)
    return .property p (negated != differs)
  else if c = '\\' then .fail .badEscape
  else return .property (.letter c) negated

/-- The boundaries that are named between braces. -/
def namedBoundaries : List (String × WordBoundary) :=
  [("start", .start), ("end", .finish), ("start-half", .startHalf), ("end-half", .finishHalf)]

/-- The name of a boundary, through the closing brace. -/
def boundaryName (verbose : Bool) : Reader Atom := do
  let name ← .upToBrace verbose .badEscape
  return .look (.word (← .ofOption .badEscape (namedBoundaries.lookup (.ofList name))))

/-- The boundary that `\b` writes.  Braces behind it hold its name, unless what they begin
with shows that they are those of a repetition. -/
def boundaryEscape (verbose : Bool) : Reader Atom
  | '\x7b' :: s =>
    match skip verbose s with
    | [] => .error .badEscape
    | c :: _ =>
      if c.isAlpha ∨ c = '-' then (boundaryName verbose s).map (.behind (List.suffix_cons _ s))
      else .ok ⟨.look (.word .boundary), '\x7b' :: s, List.suffix_refl _⟩
  | s => .ok ⟨.look (.word .boundary), s, List.suffix_refl s⟩

/-- The escape that begins with `c`, behind the backslash.  Any ASCII character but letters
and digits may be escaped to stand for itself. -/
def escapeOf (verbose : Bool) (c : Char) : Reader Atom :=
  match c with
  | 'd' => return .kind .digit false
  | 's' => return .kind .space false
  | 'w' => return .kind .word false
  | 'D' => return .kind .digit true
  | 'S' => return .kind .space true
  | 'W' => return .kind .word true
  | 'a' => return .literal '\x07' false
  | 'f' => return .literal '\x0c' false
  | 'n' => return .literal '\n' false
  | 'r' => return .literal '\r' false
  | 't' => return .literal '\t' false
  | 'v' => return .literal '\x0b' false
  | 'A' => return .look .textStart
  | 'z' => return .look .textEnd
  | 'b' => boundaryEscape verbose
  | 'B' => return .look (.word .elsewhere)
  | '<' => return .look (.word .start)
  | '>' => return .look (.word .finish)
  | 'x' => hexEscape verbose 2
  | 'u' => hexEscape verbose 4
  | 'U' => hexEscape verbose 8
  | 'p' => propertyEscape verbose false
  | 'P' => propertyEscape verbose true
  | c =>
    if c.toNat < 128 ∧ !c.isAlphanum then return .literal c false
    else .fail .badEscape

/-- What follows a backslash. -/
def escape (verbose : Bool) : Reader Atom := do
  escapeOf verbose (← .next .badEscape)

/-! ## Bracketed classes -/

/-- The hyphens that stand for themselves at the front of a class.  Something has to follow
them. -/
def hyphens (verbose : Bool) : Reader Nat
  | [] => .error .unclosedClass
  | c :: s =>
    if c = '-' then
      match h : skip verbose s with
      | [] => .error .unclosedClass
      | d :: t => do
        let r ← hyphens verbose (d :: t)
        return ⟨r.value + 1, r.rest,
          r.suffix.trans ((h ▸ skip_suffix verbose s).trans (List.suffix_cons c s))⟩
    else .ok ⟨0, c :: s, List.suffix_refl _⟩
termination_by s => s.length
decreasing_by
  have hle := (h ▸ skip_suffix verbose s).length_le
  exact Nat.lt_succ_of_le hle

/-- Whether a class is negated. -/
def classSign (verbose : Bool) : Reader Bool := do
  if (← .peek .unclosedClass) = '^' then
    let _ ← .next .unclosedClass
    .blanks verbose .unclosedClass
    return true
  else return false

/-- What stands for itself at the front of a class: any hyphens, or one closing bracket. -/
def classFront (verbose : Bool) : Reader (List Char) := do
  let n ← hyphens verbose
  let c ← .peek .unclosedClass
  if n = 0 ∧ c = ']' then
    let _ ← .next .unclosedClass
    .blanks verbose .unclosedClass
    return [']']
  else return .replicate n '-'

/-- What follows the opening bracket of a class before the items proper. -/
def classOpening (verbose : Bool) : Reader Piece := do
  .blanks verbose .unclosedClass
  let negated ← classSign verbose
  return .classOpening negated (← classFront verbose)

/-- What is behind the colon and the bracket that end the name of a class. -/
def nameEnd? : List Char → Option (List Char)
  | ':' :: ']' :: rest => some rest
  | _ => none

/-- A class by its name, and what is behind the end of it. -/
def className? (negated : Bool) (s : List Char) : Option (ClassItem × List Char) := do
  let rest ← nameEnd? (s.dropWhile (· ≠ ':'))
  let a ← Class.named.lookup (.ofList (s.takeWhile (· ≠ ':')))
  return (.named a negated, rest)

/-- A class by its name, as it stands behind a bracket in a class: after a colon. -/
def namedClass? : List Char → Option (ClassItem × List Char)
  | ':' :: '^' :: s => className? true s
  | ':' :: s => className? false s
  | _ => none

theorem suffix_of_nameEnd? {s rest : List Char} (h : nameEnd? s = some rest) : rest <:+ s := by
  rw [nameEnd?.eq_def] at h
  split at h
  case h_1 =>
    cases h
    exact (List.suffix_cons _ _).trans (List.suffix_cons _ _)
  case h_2 => cases h

theorem suffix_of_className? {negated : Bool} {i : ClassItem} {s rest : List Char}
    (h : className? negated s = some (i, rest)) : rest <:+ s := by
  obtain ⟨rest, hrest, h⟩ := Option.bind_eq_some_iff.mp h
  obtain ⟨a, -, h⟩ := Option.bind_eq_some_iff.mp h
  cases h
  exact (suffix_of_nameEnd? hrest).trans (List.dropWhile_suffix _)

theorem suffix_of_namedClass? {i : ClassItem} {s rest : List Char}
    (h : namedClass? s = some (i, rest)) : rest <:+ s := by
  rw [namedClass?.eq_def] at h
  split at h
  case h_1 =>
    exact (suffix_of_className? h).trans ((List.suffix_cons _ _).trans (List.suffix_cons _ _))
  case h_2 => exact (suffix_of_className? h).trans (List.suffix_cons _ _)
  case h_3 => cases h

/-- What follows a bracket in a class: the name of a class, or the front of another one. -/
def innerClass (verbose : Bool) : Reader Piece := fun s =>
  match h : namedClass? s with
  | some (i, rest) => .ok ⟨.classItem i, rest, suffix_of_namedClass? h⟩
  | none => classOpening verbose s

/-- One end of a range, or an item that stands alone. -/
def classAtom (verbose : Bool) (c : Char) : Reader Atom :=
  if c = '\\' then escape verbose else return .literal c false

/-- What is behind the sign of a comment and white space, if there is such a sign. -/
def pastSign : List Char → List Char
  | '#' :: s => s.dropWhile Text.isWhiteSpace
  | s => s

/-- The character that decides whether a hyphen makes a range.  Of the comments on the way
to it, no more than the sign of the first is passed over. -/
def behindHyphen (verbose : Bool) (s : List Char) : Option Char :=
  if verbose then (pastSign (s.dropWhile Text.isWhiteSpace)).head? else s.head?

/-- Whether what is ahead makes a range: a hyphen, but not before the closing bracket or
before another hyphen. -/
def rangeAhead (verbose : Bool) : Reader Bool
  | [] => .error .unclosedClass
  | c :: s => .ok ⟨c = '-' ∧ behindHyphen verbose s ≠ some ']' ∧ behindHyphen verbose s ≠ some '-',
      c :: s, List.suffix_refl _⟩

/-- The item or the range that begins with `c`. -/
def classItem (verbose : Bool) (c : Char) : Reader Piece := do
  let a ← classAtom verbose c
  .blanks verbose .unclosedClass
  if (← rangeAhead verbose) then
    let _ ← .next .unclosedClass
    .blanks verbose .unclosedClass
    let b ← classAtom verbose (← .next .unclosedClass)
    return .classItem (.range a b)
  else return .classItem (.atom a)

/-- The operator that two of these characters write. -/
def ClassOperator.ofChar? : Char → Option ClassOperator
  | '&' => some .inter
  | '-' => some .diff
  | '~' => some .symmDiff
  | _ => none

/-- An operator, if the character is doubled, and else an item. -/
def operatorOrItem (verbose : Bool) (c : Char) : Reader Piece := fun s =>
  match ClassOperator.ofChar? c, s with
  | some o, d :: t =>
    if d = c then .ok ⟨.classOperator o, t, List.suffix_cons d t⟩
    else classItem verbose c (d :: t)
  | _, s => classItem verbose c s

/-- The piece that begins with `c` in a class. -/
def classPiece (verbose : Bool) (c : Char) : Reader Piece :=
  match c with
  | '[' => innerClass verbose
  | ']' => return .classClosing
  | c => operatorOrItem verbose c

/-! ## Repetition -/

/-- The number that decimal digits write. -/
def ofDigits (ds : List Char) : Nat :=
  ds.foldl (fun n d => n * 10 + (d.toNat - '0'.toNat)) 0

/-- Decimal digits, after which there has to be something. -/
def digits (verbose : Bool) : Reader (List Char)
  | [] => .error .badRepetition
  | c :: s =>
    if c.isDigit then do
      let r ← digits verbose (skip verbose s)
      return ⟨c :: r.value, r.rest,
        r.suffix.trans ((skip_suffix verbose s).trans (List.suffix_cons c s))⟩
    else .ok ⟨[], c :: s, List.suffix_refl _⟩
termination_by s => s.length
decreasing_by exact Nat.lt_succ_of_le (skip_suffix verbose s).length_le

/-- Pass over white space, after which there has to be something. -/
def whiteSpace : Reader Unit := fun s =>
  if s.dropWhile Text.isWhiteSpace = [] then .error .badRepetition
  else .ok ⟨(), s.dropWhile Text.isWhiteSpace, List.dropWhile_suffix _⟩

/-- A decimal number below `2 ^ 32`, with white space around it allowed. -/
def count (verbose : Bool) : Reader Nat := do
  whiteSpace
  let ds ← digits verbose
  whiteSpace
  if ds = [] ∨ Nat.pow 2 32 ≤ ofDigits ds then .fail .badRepetition else return ofDigits ds

/-- The bounds that follow an opening brace, through the closing one. -/
def bounds (verbose : Bool) : Reader (Nat × Option Nat) := do
  .blanks verbose .badRepetition
  let lo ← count verbose
  let c ← .next .badRepetition
  if c = '\x7d' then return (lo, some lo)
  else if c = ',' then
    .blanks verbose .badRepetition
    if (← .peek .badRepetition) = '\x7d' then
      let _ ← .next .badRepetition
      return (lo, none)
    else
      let hi ← count verbose
      let c ← .next .badRepetition
      if c = '\x7d' then return (lo, some hi) else .fail .badRepetition
  else .fail .badRepetition

/-- A repetition mark, lazy if a question mark follows. -/
def mark (verbose : Bool) (lo : Nat) (hi : Option Nat) : Reader Piece := fun s =>
  match h : skip verbose s with
  | '?' :: rest => .ok ⟨.times lo hi true, rest, suffix_of_skip h⟩
  | _ => .ok ⟨.times lo hi false, s, List.suffix_refl s⟩

/-! ## Groups -/

/-- Whether a group may have the name. -/
def isGroupName : List Char → Bool
  | [] => false
  | c :: cs =>
    (c == '_' || Text.isAlphabetic c) &&
      cs.all fun c => "_.[]".contains c || Text.isAlphabetic c || Text.isNumeric c

/-- The name of a group, through the angle that closes it. -/
def groupName : Reader Piece := fun s =>
  match h : s.dropWhile (· ≠ '>') with
  | [] => .error .badGroupName
  | c :: rest =>
    if isGroupName (s.takeWhile (· ≠ '>')) then
      .ok ⟨.opening (some (s.takeWhile (· ≠ '>'))) .none, rest,
        (List.suffix_cons c rest).trans (h ▸ List.dropWhile_suffix _)⟩
    else .error .badGroupName

/-- Flags, through what ends them: a bracket if they hold from there on, and a colon if they
are those of a group. -/
def flagLetters : Reader Piece := fun s =>
  match h : s.dropWhile fun c => c ≠ ':' ∧ c ≠ ')' with
  | [] => .error .unclosedGroup
  | c :: rest =>
    match FlagChange.ofLetters? (s.takeWhile fun c => c ≠ ':' ∧ c ≠ ')') with
    | none => .error .badFlags
    | some d =>
      if c = ')' ∧ d = .none then .error .nothingToRepeat
      else .ok ⟨if c = ':' then .opening none d else .flags d, rest,
        (List.suffix_cons c rest).trans (h ▸ List.dropWhile_suffix _)⟩

/-- What follows the question mark behind an opening bracket. -/
def specialGroup : Reader Piece
  | '=' :: _ | '!' :: _ | '<' :: '=' :: _ | '<' :: '!' :: _ => .error .lookAround
  | 'P' :: '<' :: s =>
    (groupName s).map (.behind ((List.suffix_cons _ _).trans (List.suffix_cons _ _)))
  | '<' :: s => (groupName s).map (.behind (List.suffix_cons _ _))
  | s => flagLetters s

/-- What follows an opening bracket. -/
def group (verbose : Bool) : Reader Piece := fun s =>
  match h : skip verbose s with
  | '?' :: rest => (specialGroup rest).map (.behind (suffix_of_skip h))
  | _ => .ok ⟨.opening none .none, s, List.suffix_refl s⟩

/-! ## Pieces -/

/-- The piece that begins with `c` outside of classes. -/
def piece (verbose : Bool) (c : Char) : Reader Piece :=
  match c with
  | '(' => group verbose
  | ')' => return .closing
  | '|' => return .bar
  | '?' => mark false 0 (some 1)
  | '*' => mark false 0 none
  | '+' => mark false 1 none
  | '\x7b' => do
    let (lo, hi) ← bounds verbose
    mark verbose lo hi
  | '[' => classOpening verbose
  | '.' => return .atom .dot
  | '^' => return .atom (.look .lineStart)
  | '$' => return .atom (.look .lineEnd)
  | '\\' => return .atom (← escape verbose)
  | c => return .atom (.literal c false)

/-- What stands before a piece, as far as it decides how the piece is read: whether the
pattern is verbose, whether it is where the open groups end, and how many classes are
open. -/
structure Mode where
  verbose : Bool
  outer : List Bool
  depth : Nat
  deriving DecidableEq, Repr

namespace Mode

/-- The mode at the start of a pattern. -/
def start : Mode := ⟨false, [], 0⟩

def after (m : Mode) : Piece → Mode
  | .opening _ d => ⟨(d.value? .verbose).getD m.verbose, m.verbose :: m.outer, m.depth⟩
  | .closing => ⟨m.outer.head?.getD false, m.outer.tail, m.depth⟩
  | .flags d => { m with verbose := (d.value? .verbose).getD m.verbose }
  | .classOpening _ _ => { m with depth := m.depth + 1 }
  | .classClosing => { m with depth := m.depth - 1 }
  | _ => m

/-- The piece that begins with `c`. -/
def piece (m : Mode) (c : Char) : Reader Piece :=
  if m.depth = 0 then Regex.piece m.verbose c else classPiece m.verbose c

end Mode

/-- The pieces of a text that begins in the mode, and whether the text ends in a comment. -/
def pieces (m : Mode) (s : List Char) : Except Malformed (List Piece × Bool) :=
  match _h : skip m.verbose s with
  | [] => if m.depth ≠ 0 then .error .unclosedClass else .ok ([], endsInRemark m.verbose s)
  | c :: t => do
    let r ← m.piece c t
    let (ps, remark) ← pieces (m.after r.value) r.rest
    return (r.value :: ps, remark)
termination_by s.length
decreasing_by
  have hlt : t.length < s.length := (_h ▸ skip_suffix m.verbose s).length_le
  exact Nat.lt_of_le_of_lt r.suffix.length_le hlt

end SourceTokens.Regex

/-
# `SourceTokens.Regex.Assembly` — the expression that pieces make

The pieces of a pattern are put together from left to right.  For each open group the
branches and the parts read so far are kept, and the flags that hold in it; a change of
flags holds up to the end of its group, so that the flags of a group are those around it
again once it is closed.  Flags decide what an atom means at the place where it stands.

Which characters the properties of Unicode hold, and which differ in case only, is not said
here.  It is given from outside (`CharacterData`).
-/
import SourceTokens.Regex.Piece

namespace SourceTokens.Regex

/-- What is known of the characters of Unicode. -/
structure CharacterData where
  /-- The class of a property, if there is a property of that name and value. -/
  property? : Property → Option Class
  /-- Characters that differ in case only, together. -/
  orbits : List (List Char)

/-- No knowledge of Unicode at all. -/
def CharacterData.none : CharacterData := ⟨fun _ => .none, []⟩

/-! ## What atoms mean under flags -/

namespace Flags

variable (data : CharacterData) (fs : Flags)

/-- The class, with the other cases of its characters if case is ignored. -/
def fold (a : Class) : Class :=
  if fs .ignoreCase then a.withCases (if fs .unicode then data.orbits else Class.asciiOrbits)
  else a

/-- The class or its complement.  A complement is never held to ASCII. -/
def negate (negated : Bool) (a : Class) : Except Malformed Class :=
  if negated then if fs .unicode then pure a.compl else throw .beyondAscii
  else pure a

def kind (k : Kind) (negated : Bool) : Except Malformed Class :=
  fs.negate negated (if fs .unicode then .kind k else k.ascii)

def property (p : Property) (negated : Bool) : Except Malformed Class :=
  if fs .unicode then
    match data.property? p with
    | some a => fs.negate negated (fs.fold data a)
    | none => throw .unknownProperty
  else throw .beyondAscii

def dot : Except Malformed Class :=
  if !fs .unicode then throw .beyondAscii
  else if fs .dotAll then pure .any
  else if fs .crlf then pure .notLineEnd
  else pure .notNewline

def look : Look → Assertion
  | .lineStart => if fs .multiLine then .lineStart (fs .crlf) else .textStart
  | .lineEnd => if fs .multiLine then .lineEnd (fs .crlf) else .textEnd
  | .textStart => .textStart
  | .textEnd => .textEnd
  | .word b => .word b !(fs .unicode)

/-- The expression of an atom.  A character that is given as an octet has to be ASCII if the
pattern is held to that. -/
def atom : Atom → Except Malformed Regex
  | .literal c octet =>
    if !fs .unicode ∧ octet ∧ 0x80 ≤ c.toNat then throw .beyondAscii
    else pure (.one (fs.fold data (.char c)))
  | .dot => return .one (← fs.dot)
  | .kind k negated => return .one (← fs.kind k negated)
  | .property p negated => return .one (← fs.property data p negated)
  | .look l => pure (.assert (fs.look l))

/-- A character of a class. -/
def classChar (c : Char) : Except Malformed Char :=
  if !fs .unicode ∧ 0x80 ≤ c.toNat then throw .beyondAscii else pure c

/-- The class that an item stands for.  The ends of a range have to be characters in
order. -/
def classItem : ClassItem → Except Malformed Class
  | .atom (.literal c _) => return .char (← fs.classChar c)
  | .atom (.kind k negated) => fs.kind k negated
  | .atom (.property p negated) => fs.property data p negated
  | .atom .dot => throw .assertionInClass
  | .atom (.look _) => throw .assertionInClass
  | .range (.literal lo _) (.literal hi _) =>
    if lo ≤ hi then return .range (← fs.classChar lo) (← fs.classChar hi) else throw .badRange
  | .range _ _ => throw .badRange
  | .named a negated => fs.negate negated (fs.fold data a)

end Flags

/-! ## Open classes -/

def ClassOperator.apply : ClassOperator → Class → Class → Class
  | inter => .inter
  | diff => .diff
  | symmDiff => .symmDiff

/-- The part of a bracketed class read so far: the last operator and what stands before it,
and the union of the items since then. -/
structure OpenClass where
  negated : Bool
  before : Option (ClassOperator × Class)
  operand : Class
  deriving DecidableEq, Repr

namespace OpenClass

def add (k : OpenClass) (a : Class) : OpenClass := { k with operand := .union k.operand a }

/-- What has been read, with the last operator applied. -/
def value (data : CharacterData) (fs : Flags) (k : OpenClass) : Class :=
  match k.before with
  | none => k.operand
  | some (o, a) => o.apply (fs.fold data a) (fs.fold data k.operand)

/-- Go on behind an operator. -/
def operate (data : CharacterData) (fs : Flags) (k : OpenClass) (o : ClassOperator) : OpenClass :=
  { k with before := some (o, k.value data fs), operand := .nothing }

def close (data : CharacterData) (fs : Flags) (k : OpenClass) : Except Malformed Class :=
  fs.negate k.negated (fs.fold data (k.value data fs))

end OpenClass

/-! ## Open groups -/

/-- The part of a group read so far, latest first: its finished branches, the parts of the
branch at hand, and the flags in force.  A change of flags is a part that is no
expression. -/
structure Group where
  branches : List Regex
  parts : List (Option Regex)
  flags : Flags

namespace Group

/-- A group of which nothing has been read. -/
def empty (fs : Flags) : Group := ⟨[], [], fs⟩

def add (g : Group) (r : Regex) : Group := { g with parts := some r :: g.parts }

/-- End the branch at hand. -/
def endBranch (g : Group) : Group :=
  { g with branches := concat (g.parts.reverse.filterMap id) :: g.branches, parts := [] }

/-- The expression that the group stands for. -/
def close (g : Group) : Regex := oneOf g.endBranch.branches.reverse

/-- Change flags from here on. -/
def change (g : Group) (d : FlagChange) : Group :=
  { g with parts := none :: g.parts, flags := g.flags.change d }

/-- Apply a repetition mark to the part just before it.  It may not demand more rounds than
it allows. -/
def repeated (g : Group) (lo : Nat) (hi : Option Nat) (lazy : Bool) : Except Malformed Group :=
  match g.parts with
  | some r :: parts =>
    if hi.any (· < lo) then throw .badRepetition
    else pure { g with parts := some (.times r lo hi (lazy != g.flags .swapGreed)) :: parts }
  | _ => throw .nothingToRepeat

end Group

/-! ## Assembly -/

/-- The innermost open group, and those around it from the inside out; likewise the open
classes, if any; and the names of the groups so far. -/
structure Assembly where
  around : List Group
  inner : Group
  classes : List OpenClass
  names : List (List Char)

namespace Assembly

/-- An assembly of which nothing has been read. -/
def empty : Assembly := ⟨[], .empty .default, [], []⟩

def add (a : Assembly) (r : Regex) : Assembly := { a with inner := a.inner.add r }

/-- The names of the groups with one more.  No name may be given twice. -/
def declare (a : Assembly) : Option (List Char) → Except Malformed (List (List Char))
  | none => pure a.names
  | some name => if name ∈ a.names then throw .repeatedGroupName else pure (name :: a.names)

/-- Add a class that has been closed to what it stands in. -/
def addClass (a : Assembly) (c : Class) : Assembly :=
  match a.classes with
  | [] => a.add (.one c)
  | k :: classes => { a with classes := k.add c :: classes }

/-- Take in one piece. -/
def take (data : CharacterData) (a : Assembly) : Piece → Except Malformed Assembly
  | .atom x => return a.add (← a.inner.flags.atom data x)
  | .bar => pure { a with inner := a.inner.endBranch }
  | .opening name d => do
    let names ← a.declare name
    return ⟨a.inner :: a.around, .empty (a.inner.flags.change d), a.classes, names⟩
  | .closing =>
    match a.around with
    | [] => throw .unopenedGroup
    | g :: around => pure { a with around, inner := g.add a.inner.close }
  | .times lo hi lazy => return { a with inner := ← a.inner.repeated lo hi lazy }
  | .flags d => pure { a with inner := a.inner.change d }
  | .classOpening negated cs =>
    pure { a with classes := ⟨negated, none, .unions (cs.map .char)⟩ :: a.classes }
  | .classItem i => return a.addClass (← a.inner.flags.classItem data i)
  | .classOperator o =>
    match a.classes with
    | [] => throw .unopenedClass
    | k :: classes => pure { a with classes := k.operate data a.inner.flags o :: classes }
  | .classClosing =>
    match a.classes with
    | [] => throw .unopenedClass
    | k :: classes => do
      let c ← k.close data a.inner.flags
      return addClass { a with classes } c

/-- The whole expression, when every group has been closed. -/
def finish (a : Assembly) : Except Malformed Regex :=
  match a.around with
  | [] => pure a.inner.close
  | _ :: _ => throw .unclosedGroup

end Assembly

/-- Put the pieces of a pattern together. -/
def assemble (data : CharacterData) (ps : List Piece) : Except Malformed Regex := do
  (← ps.foldlM (Assembly.take data) .empty).finish

end SourceTokens.Regex

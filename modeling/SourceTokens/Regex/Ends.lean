/-
# `SourceTokens.Regex.Ends` — where a match may end, in order of preference

`r.ends p` lists the places where a match of `r` that begins at `p` may end, the
preferred one first and none twice.  A sequence tries its second part from the
ends of its first, in their order; an alternative prefers its left side; a
repetition prefers another round, or the way out when it is lazy.

A place is listed only the first time it comes up: whatever follows the match
fares the same from there, so a later arrival adds nothing.  This is also what
keeps the work bounded, where trying every way through would not be.

A round of a repetition that reads nothing ends it.
-/
import SourceTokens.Regex.Basic

namespace SourceTokens.Regex

/-! ## Places found so far -/

/-- Places in the order they were found, latest first, and the set of their
indices, one bit each. -/
structure Found where
  latestFirst : List Point
  seen : Nat
  deriving DecidableEq, Repr

namespace Found

def empty : Found := ⟨[], 0⟩

def has (f : Found) (p : Point) : Bool := f.seen.testBit p.index

/-- Add a place, unless it is there already. -/
def insert (f : Found) (p : Point) : Found :=
  if f.has p then f else ⟨p :: f.latestFirst, f.seen ||| 1 <<< p.index⟩

/-- The places in the order they were found. -/
def toList (f : Found) : List Point := f.latestFirst.reverse

end Found

/-- The places of a list, each at its first occurrence only. -/
def distinct : List Point → List Point
  | [] => []
  | [p] => [p]
  | ps => (ps.foldl Found.insert .empty).toList

/-! ## Repetition -/

section Repetition

variable (step : Point → List Point) (lazy : Bool)

/-- Add the place `p` and every place that further rounds lead to from it: first
`p` when `lazy`, else `p` last.  The number bounds the rounds; one for each
character ahead is enough, since only rounds that read are followed. -/
def explore : Nat → Found → Point → Found
  | 0, f, p => f.insert p
  | n + 1, f, p =>
    if f.has p then f
    else
      let further := (step p).filter fun q => p.index < q.index
      if lazy then further.foldl (explore n) (f.insert p)
      else (further.foldl (explore n) f).insert p

/-- One round or more from `p`.  A first round that reads nothing ends there. -/
def rounds (p : Point) : List Point :=
  ((step p).foldl
    (fun f q =>
      if q.index = p.index then f.insert q
      else explore step lazy q.ahead.length f q)
    .empty).toList

/-- Exactly `n` rounds. -/
def exactly : Nat → Point → List Point
  | 0, p => [p]
  | n + 1, p => distinct ((exactly n p).flatMap step)

/-- What `step` leads to, or no step at all. -/
def orStay (p : Point) : List Point :=
  distinct (if lazy then p :: step p else step p ++ [p])

/-- At most `n` rounds. -/
def atMost : Nat → Point → List Point
  | 0, p => [p]
  | n + 1, p => orStay (fun p => distinct ((step p).flatMap (atMost n))) lazy p

/-- At least `lo` rounds and at most `hi`. -/
def repeated (lo : Nat) (hi : Option Nat) (p : Point) : List Point :=
  match lo, hi with
  | 0, none => orStay (rounds step lazy) lazy p
  | lo + 1, none => distinct ((exactly step lo p).flatMap (rounds step lazy))
  | lo, some hi => distinct ((exactly step lo p).flatMap (atMost step lazy (hi - lo)))

end Repetition

/-! ## Single characters -/

/-- The place after one character of the class. -/
def Class.ends (a : Class) (p : Point) : List Point :=
  match p.ahead with
  | [] => []
  | c :: rest => if a.contains c then [p.read c rest] else []

/-- The places that reading characters of the class leads to, the farthest first,
followed by those of `nearer`. -/
def Class.run (a : Class) (p : Point) (nearer : List Point) : List Point :=
  match _h : p.ahead with
  | [] => p :: nearer
  | c :: rest =>
    if a.contains c then a.run (p.read c rest) (p :: nearer) else p :: nearer
termination_by p.ahead.length
decreasing_by simp [_h]

/-- Repetition of a single character: no place comes up twice, so nothing has to be
remembered. -/
def Class.repeated (a : Class) (lazy : Bool) (lo : Nat) (hi : Option Nat) (p : Point) :
    List Point :=
  let enough := (a.run p []).reverse.drop lo
  let allowed := match hi with
    | none => enough
    | some hi => enough.take (hi - lo + 1)
  if lazy then allowed else allowed.reverse

/-- The class, if the expression is a single character. -/
def single? : Regex → Option Class
  | one a => some a
  | _ => none

/-! ## Ends -/

/-- The places where a match from `p` may end, the preferred one first. -/
def ends : Regex → Point → List Point
  | empty, p => [p]
  | one a, p => a.ends p
  | assert a, p => if a.holds p then [p] else []
  | seq r s, p => distinct ((ends r p).flatMap (ends s))
  | alt r s, p => distinct (ends r p ++ ends s p)
  | times r lo hi lazy, p =>
    match r.single? with
    | some a => a.repeated lazy lo hi p
    | none => repeated (ends r) lazy lo hi p

/-- The preferred match from `p`, by its end. -/
def matchAt (r : Regex) (p : Point) : Option Point := (r.ends p).head?

/-- The end of the leftmost match that begins at `p` or later. -/
def find (r : Regex) (p : Point) : Option Point :=
  match r.matchAt p with
  | some q => some q
  | none =>
    match _h : p.next? with
    | some q => find r q
    | none => none
termination_by p.ahead.length
decreasing_by
  obtain ⟨c, ha, _⟩ := Point.ahead_of_next? _h
  simp [ha]

end SourceTokens.Regex

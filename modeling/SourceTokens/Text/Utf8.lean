/-
# `SourceTokens.Text.Utf8` — octets as text

Any octets can be cut into characters and bad stretches: from each place the octets
are taken as long as they begin some character, and if they end before one is whole
they make one bad stretch.  Text is strict when it has no bad stretch, and can always
be had leniently, with one replacement character for each.
-/

namespace SourceTokens.Text.Utf8

/-- The octets from `lo` to `hi`. -/
structure Range where
  lo : UInt8
  hi : UInt8
  deriving DecidableEq, Repr

def Range.contains (r : Range) (b : UInt8) : Bool := decide (r.lo ≤ b) && decide (b ≤ r.hi)

/-- Any octet that continues a character. -/
def tail : Range := ⟨0x80, 0xbf⟩

/-- What an octet at the start of a character contributes to its number, and the
octets that have to follow.  The second octet is held closer where the rest of its
range would write a surrogate, a number that is too large, or one that a shorter form
writes. -/
def lead? (b : UInt8) : Option (Nat × List Range) :=
  let n := b.toNat
  if n < 0x80 then some (n, [])
  else if n < 0xc2 then none
  else if n < 0xe0 then some (n - 0xc0, [tail])
  else if n = 0xe0 then some (n - 0xe0, [⟨0xa0, 0xbf⟩, tail])
  else if n = 0xed then some (n - 0xe0, [⟨0x80, 0x9f⟩, tail])
  else if n < 0xf0 then some (n - 0xe0, [tail, tail])
  else if n = 0xf0 then some (n - 0xf0, [⟨0x90, 0xbf⟩, tail, tail])
  else if n < 0xf4 then some (n - 0xf0, [tail, tail, tail])
  else if n = 0xf4 then some (n - 0xf0, [⟨0x80, 0x8f⟩, tail, tail])
  else none

/-- Take the octets that have to follow, each adding six bits to the number `n`; the
number is missing if one of them does not come. -/
def follow (n : Nat) : List Range → List UInt8 → Option Nat × List UInt8
  | [], bs => (some n, bs)
  | _ :: _, [] => (none, [])
  | r :: rs, b :: bs =>
    if r.contains b then follow (n * 64 + (b.toNat - 0x80)) rs bs else (none, b :: bs)

/-- One character, or one bad stretch, and the octets after it. -/
def next (b : UInt8) (bs : List UInt8) : Option Char × List UInt8 :=
  match lead? b with
  | none => (none, bs)
  | some (n, rs) =>
    let (n, bs) := follow n rs bs
    (n.map Char.ofNat, bs)

theorem length_follow_le (n : Nat) (rs : List Range) (bs : List UInt8) :
    (follow n rs bs).2.length ≤ bs.length := by
  induction rs generalizing n bs with
  | nil => simp [follow]
  | cons r rs ih =>
    cases bs with
    | nil => simp [follow]
    | cons b bs =>
      simp only [follow]
      split
      · exact Nat.le_succ_of_le (ih _ _)
      · simp

theorem length_next_le (b : UInt8) (bs : List UInt8) :
    (next b bs).2.length ≤ bs.length := by
  unfold next
  split
  · simp
  · exact length_follow_le _ _ _

/-- The characters and the bad stretches of octets; a bad stretch is `none`. -/
def units (octets : List UInt8) : List (Option Char) :=
  match octets with
  | [] => []
  | b :: bs =>
    have : (next b bs).2.length < (b :: bs).length :=
      Nat.lt_succ_of_le (length_next_le b bs)
    (next b bs).1 :: units (next b bs).2
termination_by octets.length
decreasing_by exact this

/-- What a bad stretch is read as. -/
def replacement : Char := '\ufffd'

/-- The text of octets that are all well formed. -/
def decode? (octets : List UInt8) : Option String :=
  ((units octets).mapM id).map String.ofList

/-- The text of any octets. -/
def decodeLenient (octets : List UInt8) : String :=
  .ofList ((units octets).map (·.getD replacement))

/-- The octets of a text. -/
def encode (s : String) : List UInt8 := s.toUTF8.toList

end SourceTokens.Text.Utf8

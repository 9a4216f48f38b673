/-
# `SourceTokens.Regex.Point` — a place between two characters of a text

A pattern is matched against a text, and what it sees at a place is the text on
both sides of it: `past`, nearest character first, and `ahead`.  `index` is the
number of characters passed; it is carried so that two places of one text are
told apart without walking them.
-/
import SourceTokens.Text.Property.WordCharacter

namespace SourceTokens.Regex

/-- A place in a text. -/
structure Point where
  past : List Char
  ahead : List Char
  index : Nat
  index_eq : index = past.length
  deriving DecidableEq, Repr

namespace Point

/-- The place before the first character. -/
def start (text : List Char) : Point := ⟨[], text, 0, rfl⟩

/-- The place after reading `c`, with `rest` left to read. -/
def read (p : Point) (c : Char) (rest : List Char) : Point :=
  ⟨c :: p.past, rest, p.index + 1, by simp [p.index_eq]⟩

/-- The next place, if there is one. -/
def next? (p : Point) : Option Point :=
  match p.ahead with
  | [] => none
  | c :: rest => some (p.read c rest)

/-- The characters passed, in reading order. -/
def passed (p : Point) : List Char := p.past.reverse

/-- What a pattern takes for a word character, and what it does if it is held to
ASCII. -/
def isWord (ascii : Bool) (c : Char) : Bool :=
  if ascii then c.isAlphanum || c == '_' else Text.isWordCharacter c

/-- Whether the character before the place is a word character. -/
def wordBehind (ascii : Bool) (p : Point) : Bool := p.past.head?.any (isWord ascii)

/-- Whether the character after the place is a word character. -/
def wordAhead (ascii : Bool) (p : Point) : Bool := p.ahead.head?.any (isWord ascii)

@[simp] theorem past_start (t : List Char) : (start t).past = [] := rfl
@[simp] theorem ahead_start (t : List Char) : (start t).ahead = t := rfl
@[simp] theorem past_read (p : Point) (c : Char) (r : List Char) :
    (p.read c r).past = c :: p.past := rfl
@[simp] theorem ahead_read (p : Point) (c : Char) (r : List Char) :
    (p.read c r).ahead = r := rfl

theorem ahead_of_next? {p q : Point} (h : p.next? = some q) :
    ∃ c, p.ahead = c :: q.ahead ∧ q.past = c :: p.past := by
  obtain ⟨past, ahead, i, hi⟩ := p
  cases ahead with
  | nil => simp [next?] at h
  | cons c rest =>
    obtain rfl : read ⟨past, c :: rest, i, hi⟩ c rest = q := by
      simpa [next?] using h
    exact ⟨c, rfl, rfl⟩

/-- `p.Reaches w q`: reading `w` leads from `p` to `q`. -/
def Reaches (p : Point) (w : List Char) (q : Point) : Prop :=
  p.ahead = w ++ q.ahead ∧ q.past = w.reverse ++ p.past

theorem Reaches.refl (p : Point) : p.Reaches [] p := ⟨rfl, rfl⟩

theorem Reaches.trans {p q r : Point} {u v : List Char} (h : p.Reaches u q)
    (k : q.Reaches v r) : p.Reaches (u ++ v) r :=
  ⟨by rw [h.1, k.1, List.append_assoc], by rw [k.2, h.2]; simp⟩

theorem Reaches.of_next? {p q : Point} (h : p.next? = some q) :
    ∃ c, p.Reaches [c] q := by
  obtain ⟨c, ha, hp⟩ := ahead_of_next? h
  exact ⟨c, ha, hp⟩

end Point

end SourceTokens.Regex

/-
# `SourceTokens.Json.Quoted` — strings

Reading and writing the strings of JSON.  Characters beyond the first plane may be
written as two escapes, a leading and a trailing surrogate; either one alone is
refused.  What is written escapes no more than it has to.
-/
import SourceTokens.Json.Cursor
import SourceTokens.Text.Hexadecimal

namespace SourceTokens.Json

/-! ## Reading -/

/-- Something read from the cursor, and the cursor after it. -/
structure Taken (α : Type) (c : Cursor) where
  value : α
  next : Cursor
  shorter : next.rest.length < c.rest.length

namespace Quoted

/-- The four digits of an escape.  Four octets are taken before they are looked at. -/
def fourDigits (c : Cursor) : Except Error (Taken Nat c) :=
  match h : c.rest with
  | d₁ :: d₂ :: d₃ :: d₄ :: rest =>
    match Text.Hexadecimal.value? [d₁, d₂, d₃, d₄] with
    | some n =>
      pure ⟨n, ⟨rest, ⟨c.position.line, c.position.column + 4⟩⟩, by simp [h]; omega⟩
    | none => .error ⟨.invalidEscape, Cursor.positionAfter 4 c.rest c.position⟩
  | few =>
    if few.foldr (fun c n => c.utf8Size + n) 0 < 4 then c.finish.fail .endInString
    else .error ⟨.invalidEscape, Cursor.positionAfter 4 c.rest c.position⟩

/-- One more character, which has to be the given one. -/
def expectInEscape (d : Char) (c : Cursor) : Except Error (Taken Unit c) :=
  match h : c.rest with
  | [] => c.fail .endInString
  | e :: rest =>
    if e = d then pure ⟨(), ⟨rest, c.position.past e⟩, by simp [h]⟩
    else c.failAhead .endOfEscape

/-- The character of an escape by number, after its letter. -/
def numericEscape (c : Cursor) : Except Error (Taken Char c) := do
  let r ← fourDigits c
  if 0xdc00 ≤ r.value ∧ r.value ≤ 0xdfff then r.next.fail .loneSurrogate
  else if 0xd800 ≤ r.value ∧ r.value ≤ 0xdbff then
    let b ← expectInEscape '\\' r.next
    let u ← expectInEscape 'u' b.next
    let q ← fourDigits u.next
    if 0xdc00 ≤ q.value ∧ q.value ≤ 0xdfff then
      pure ⟨.ofNat ((r.value - 0xd800) * 0x400 + (q.value - 0xdc00) + 0x10000), q.next, by
        have := r.shorter; have := b.shorter; have := u.shorter; have := q.shorter
        omega⟩
    else q.next.fail .loneSurrogate
  else pure ⟨.ofNat r.value, r.next, r.shorter⟩

/-- The characters that have an escape of one letter, by that letter. -/
def letterEscapes : List (Char × Char) :=
  [('"', '"'), ('\\', '\\'), ('/', '/'), ('b', '\x08'), ('f', '\x0c'), ('n', '\n'),
    ('r', '\r'), ('t', '\t')]

/-- The character of an escape, after its backslash. -/
def escape (c : Cursor) : Except Error (Taken Char c) :=
  match h : c.rest with
  | [] => c.fail .endInString
  | 'u' :: rest => do
    let r ← numericEscape ⟨rest, c.position.past 'u'⟩
    pure ⟨r.value, r.next, by have := r.shorter; simp_all; omega⟩
  | d :: rest =>
    match letterEscapes.lookup d with
    | some e => pure ⟨e, ⟨rest, c.position.past d⟩, by simp [h]⟩
    | none => c.failAhead .invalidEscape

/-- The rest of a string, through its closing quote. -/
def body (c : Cursor) (read : List Char) : Except Error (String × Cursor) :=
  match h : c.rest with
  | [] => c.fail .endInString
  | d :: rest =>
    if d = '"' then pure (.ofList read.reverse, ⟨rest, c.position.past d⟩)
    else if d = '\\' then do
      let r ← escape ⟨rest, c.position.past d⟩
      have : r.next.rest.length < c.rest.length := by
        have := r.shorter; simp_all; omega
      body r.next (r.value :: read)
    else if d.toNat < 0x20 then c.failAhead .controlCharacter
    else body ⟨rest, c.position.past d⟩ (d :: read)
termination_by c.rest.length
decreasing_by all_goals simp_all

/-! ## Writing -/

/-- Characters below the space as they are written. -/
def encodeControl (c : Char) : List Char :=
  match c with
  | '\x08' => ['\\', 'b']
  | '\x0c' => ['\\', 'f']
  | '\n' => ['\\', 'n']
  | '\r' => ['\\', 'r']
  | '\t' => ['\\', 't']
  | c => ['\\', 'u', '0', '0', if c.toNat < 16 then '0' else '1'] ++
      Text.Hexadecimal.digits (c.toNat % 16)

/-- The written form of one character. -/
def encodeChar (c : Char) : List Char :=
  if c = '"' then ['\\', '"']
  else if c = '\\' then ['\\', '\\']
  else if c.toNat < 0x20 then encodeControl c
  else [c]

/-- The written form of a string, quotes included. -/
def encode (s : String) : String :=
  .ofList ('"' :: s.toList.flatMap encodeChar ++ ['"'])

end Quoted

end SourceTokens.Json

/-
# `SourceTokens.Proofs.Json.Documents` — a reader of whole documents

`Document.read` reads any JSON text and keeps all that it says.  It is put together from
the readers of strings, keywords, lists and objects that the settings are read with.

It reads every text that the grammar allows as the document that the grammar says
(`Document.read_of_writes`).  So a text says one thing at most, and any other reader that
keeps to the grammar agrees with this one.
-/
import SourceTokens.Proofs.Json.Numerals

namespace SourceTokens.Json

namespace Document

mutual

/-- The document at the cursor.  Every step takes a character at least, so that a text of
`n` characters takes no more than `n` steps within one another. -/
def readValue : Nat → Cursor → Except Error (Document × Cursor)
  | 0, c => c.failAhead .endInValue
  | n + 1, c => do
    let (d, c) ← value c
    if d = 'n' then return (.null, ← keyword ['u', 'l', 'l'] c.bump)
    else if d = 't' then return (.boolean true, ← keyword ['r', 'u', 'e'] c.bump)
    else if d = 'f' then return (.boolean false, ← keyword ['a', 'l', 's', 'e'] c.bump)
    else if d = '"' then
      let (s, c) ← Quoted.body c.bump []
      return (.string s, c)
    else if d = '[' then
      let (ds, c) ← readElements n true c.bump
      return (.array ds, c)
    else if d = '\x7b' then
      let (fields, c) ← readFields n true c.bump
      return (.object fields, c)
    else
      let (x, c) ← Numeral.read c
      return (.number x, c)

/-- The elements that are left, through the closing bracket. -/
def readElements : Nat → Bool → Cursor → Except Error (List Document × Cursor)
  | 0, _, c => c.failAhead .endInList
  | n + 1, first, c => do
    let (more, c) ← nextElement first c
    if more then
      let (d, c) ← readValue n c
      let (ds, c) ← readElements n false c
      return (d :: ds, c)
    else return ([], c.bump)

/-- The fields that are left, through the closing brace. -/
def readFields : Nat → Bool → Cursor → Except Error (List (String × Document) × Cursor)
  | 0, _, c => c.failAhead .endInObject
  | n + 1, first, c => do
    let (key, c) ← nextKey first c
    match key with
    | none => return ([], c.bump)
    | some k =>
      let (d, c) ← readValue n (← colon c)
      let (fields, c) ← readFields n false c
      return ((k, d) :: fields, c)

end

/-- The document that a text says. -/
def read (text : String) : Except Error Document := do
  let (d, c) ← readValue text.length (.ofText text.toList)
  let c := c.skipBlank
  if c.rest = [] then return d else c.failAhead .trailingCharacters

variable {t : List Char} {n : Nat}

/-- A step is left for a text that has a character. -/
theorem exists_steps (h : t ≠ []) (hn : t.length ≤ n) :
    ∃ m, n = m + 1 ∧ t.length ≤ m + 1 := by
  have hpos : 0 < t.length := List.length_pos_of_ne_nil h
  exact ⟨n - 1, by omega, by omega⟩

mutual

/-- A document is read from a text that says it, with blanks before it and with anything
after it that does not carry on a number. -/
theorem reading_readValue {b r t : List Char} {c : Cursor} {n : Nat} {d : Document}
    (h : Says d t) (hn : t.length ≤ n) (hb : Blank b)
    (hr : EndsNumeral r) (hc : c.rest = b ++ (t ++ r)) :
    reading (readValue n c) = some (d, r) := by
  obtain ⟨f, u, c₁, htext, hv, hrest⟩ := exists_value h hb hc
  obtain ⟨m, rfl, hm⟩ := exists_steps (by simp [htext]) hn
  cases h with
  | nullWord | trueWord | falseWord =>
    cases htext
    obtain ⟨c₂, hword, rfl⟩ := leaving_eq_some_iff.mp (leaving_keyword (rest_bump hrest))
    simp [readValue, hv, hword, bind, Except.bind]
  | @number x hx =>
    obtain ⟨c₂, hread, rfl⟩ := reading_eq_some_iff.mp (Numeral.reading_read hx hr hrest)
    simp [readValue, hv, hread, hx.first_ne htext, bind, Except.bind]
  | @string s t ht =>
    cases htext
    have hinside : c₁.bump.rest = t ++ '"' :: r := rest_bump (by simpa using hrest)
    obtain ⟨c₂, hread, rfl⟩ := reading_eq_some_iff.mp (Quoted.reading_body ht [] hinside)
    simp at hread
    simp [readValue, hv, hread, bind, Except.bind]
  | array hds =>
    cases htext
    have hm : u.length ≤ m := by simpa using hm
    obtain ⟨c₂, hread, rfl⟩ :=
      reading_eq_some_iff.mp (reading_readElements hds hm (rest_bump hrest))
    simp [readValue, hv, hread, bind, Except.bind]
  | object hfields =>
    cases htext
    have hm : u.length ≤ m := by simpa using hm
    obtain ⟨c₂, hread, rfl⟩ :=
      reading_eq_some_iff.mp (reading_readFields hfields hm (rest_bump hrest))
    simp [readValue, hv, hread, bind, Except.bind]

theorem reading_readElements {r t : List Char} {c : Cursor} {n : Nat} {ds : List Document}
    {first : Bool} (h : Elements first ds t) (hn : t.length ≤ n) (hc : c.rest = t ++ r) :
    reading (readElements n first c) = some (ds, r) := by
  cases h with
  | close hb =>
    obtain ⟨m, rfl, -⟩ := exists_steps (by simp) hn
    obtain ⟨c₁, hmore, hrest⟩ :=
      reading_eq_some_iff.mp (reading_nextElement_close first hb (by simpa using hc))
    simp [readElements, hmore, rest_bump hrest, bind, Except.bind]
  | @cons _ d ds l t ts hl hd hds =>
    obtain ⟨m, rfl, hm⟩ := exists_steps (by simp [hd.ne_nil]) hn
    have hlengths : t.length ≤ m ∧ ts.length ≤ m := by
      have hpos := List.length_pos_of_ne_nil hd.ne_nil
      have hpos' := List.length_pos_of_ne_nil hds.ne_nil
      simp at hm
      omega
    obtain ⟨c₁, hmore, hrest⟩ :=
      reading_eq_some_iff.mp (reading_nextElement hl hd (r := ts ++ r) (by simpa using hc))
    obtain ⟨c₂, hread, hrest⟩ := reading_eq_some_iff.mp
      (reading_readValue hd hlengths.1 blank_nil hds.endsNumeral_append hrest)
    obtain ⟨c₃, hreads, rfl⟩ :=
      reading_eq_some_iff.mp (reading_readElements hds hlengths.2 hrest)
    simp [readElements, hmore, hread, hreads, bind, Except.bind]

theorem reading_readFields {r t : List Char} {c : Cursor} {n : Nat}
    {fields : List (String × Document)} {first : Bool} (h : Fields first fields t)
    (hn : t.length ≤ n) (hc : c.rest = t ++ r) :
    reading (readFields n first c) = some (fields, r) := by
  cases h with
  | close hb =>
    obtain ⟨m, rfl, -⟩ := exists_steps (by simp) hn
    obtain ⟨c₁, hkey, hrest⟩ :=
      reading_eq_some_iff.mp (reading_nextKey_close first hb (by simpa using hc))
    simp [readFields, hkey, rest_bump hrest, bind, Except.bind]
  | @cons _ k d fields l kt b b' t ts hl hk hb hb' hd hfields =>
    obtain ⟨m, rfl, hm⟩ := exists_steps (by simp) hn
    have hlengths : t.length ≤ m ∧ ts.length ≤ m := by
      simp at hm
      omega
    obtain ⟨c₁, hkey, hrest⟩ := reading_eq_some_iff.mp
      (reading_nextKey hl hk (r := b ++ ':' :: (b' ++ (t ++ (ts ++ r)))) (by simpa using hc))
    obtain ⟨c₂, hcolon, hrest⟩ := leaving_eq_some_iff.mp (leaving_colon hb hrest)
    obtain ⟨c₃, hread, hrest⟩ := reading_eq_some_iff.mp
      (reading_readValue hd hlengths.1 hb' hfields.endsNumeral_append hrest)
    obtain ⟨c₄, hreads, rfl⟩ :=
      reading_eq_some_iff.mp (reading_readFields hfields hlengths.2 hrest)
    simp [readFields, hkey, hcolon, hread, hreads, bind, Except.bind]

end

/-- A text is read as the document that it says. -/
theorem read_of_writes {d : Document} {text : String} (h : Writes d text.toList) :
    read text = .ok d := by
  generalize hcs : text.toList = cs at h
  obtain @⟨b, t, b', hb, hd, hb'⟩ := h
  have hlength : t.length ≤ text.length := by
    simp [← String.length_toList, hcs]
    omega
  obtain ⟨c, hread, hrest⟩ := reading_eq_some_iff.mp
    (reading_readValue (c := .ofText text.toList) hd hlength hb (endsNumeral_of_blank hb') hcs)
  have hend : c.skipBlank.rest = [] := rest_skipBlank_of_blank hb' hrest
  simp [read, hread, hend, bind, Except.bind, pure, Except.pure]

/-- A text says one document at most. -/
theorem eq_of_writes {d d' : Document} {text : List Char} (h : Writes d text)
    (h' : Writes d' text) : d = d' := by
  rw [← String.toList_ofList (l := text)] at h h'
  have heq := (read_of_writes h).symm.trans (read_of_writes h')
  simpa using heq

end Document

end SourceTokens.Json

/-
# `SourceTokens.Proofs.Markup` — tags that are well formed

`Markup.Element` is the syntax of a tag whose attributes have values of three kinds: none, a word,
or anything between quotes that does not hold the quote, nor an angle bracket, nor ends
with a backslash.  Of such a tag exactly its name and the names of its attributes are kept
(`Markup.Element.texts_chars`), although the steps inside a tag know nothing of attributes: they
look for names, and pass over a value by a guess.

What carries the proof is the character after a name or a value.  It is a blank or the
closing bracket, so that every run of characters stops where the syntax says it does, and
a name without a value is not taken for one that has a value.  A value in quotes is passed
over as a whole, the names in it included, because its first quote is its last character.
-/
import SourceTokens.Proofs.Agreement
import SourceTokens.Proofs.Contents

namespace SourceTokens.Markup

open Direct

/-! ## The syntax -/

/-- A word: letters, digits and underscores. -/
structure Word where
  chars : List Char
  ne_nil : chars ≠ []
  isWord : ∀ c ∈ chars, isWord c = true

/-- Blanks between two parts of a tag. -/
structure Gap where
  chars : List Char
  ne_nil : chars ≠ []
  isBlank : ∀ c ∈ chars, isBlank c = true

/-- A value in quotes of either kind; it may be empty. -/
structure Quotation where
  quote : Char
  body : List Char
  quote_eq : quote = '"' ∨ quote = '\''
  quote_not_mem : quote ∉ body
  isAngle : ∀ c ∈ body, isAngle c = false
  getLast?_ne : body.getLast? ≠ some '\\'

def Quotation.chars (q : Quotation) : List Char := q.quote :: (q.body ++ [q.quote])

/-- The value of an attribute. -/
inductive Value
  | word (w : Word)
  | quoted (q : Quotation)

def Value.chars : Value → List Char
  | word w => w.chars
  | quoted q => q.chars

/-- An attribute of a tag, with or without a value. -/
structure Attribute where
  name : Word
  value : Option Value

namespace Attribute

def chars (a : Attribute) : List Char :=
  a.name.chars ++ (a.value.map fun v => '=' :: v.chars).getD []

/-- What is kept of an attribute. -/
def label (a : Attribute) : List Char :=
  a.name.chars ++ (if a.value.isSome then ['='] else [])

end Attribute

/-- What stands after the attributes. -/
inductive Ending
  | plain (blanks : List Char) (h : ∀ c ∈ blanks, isBlank c = true)
  | slash (g : Gap)

def Ending.chars : Ending → List Char
  | plain blanks _ => blanks ++ ['>']
  | slash g => g.chars ++ ['/', '>']

/-- A tag: its name, its attributes, each after a gap, and its end. -/
structure Element where
  name : List Char
  name_ne_nil : name ≠ []
  name_plain : ∀ c ∈ name, isBlank c = false ∧ isAngle c = false
  attributes : List (Gap × Attribute)
  ending : Ending

/-- Attributes with their gaps, and the end of the tag. -/
def remainder (attributes : List (Gap × Attribute)) (e : Ending) : List Char :=
  (attributes.flatMap fun (g, a) => g.chars ++ a.chars) ++ e.chars

def Element.chars (m : Element) : List Char :=
  '<' :: (m.name ++ remainder m.attributes m.ending)

/-! ## What ends a name -/

variable {c : Char} {name r t w : List Char}

theorem isTagName_of_isWord (h : isWord c = true) : isTagName c = true := by
  have hblank : isBlank c = false := not_isBlank_of_isRegular (isRegular_of_isWord h)
  have hclose : c ≠ '>' := by
    rintro rfl
    cases h
  simp [isTagName, hblank, hclose]

/-- A blank or the closing bracket ends a word as well. -/
theorem not_isWord_of_not_isTagName (h : isTagName c = false) : isWord c = false := by
  cases hword : isWord c with
  | false => rfl
  | true =>
    rw [isTagName_of_isWord hword] at h
    cases h

theorem not_isTagName_of_isBlank (h : isBlank c = true) : isTagName c = false := by
  simp [isTagName, h]

theorem ne_equals_of_not_isTagName (h : isTagName c = false) : c ≠ '=' := by
  rintro rfl
  cases h

/-- A run of characters that are all of a kind ends before one that is not. -/
theorem run_of_all {p : Char → Bool} (hw : ∀ d ∈ w, p d = true) (hc : p c = false) :
    (w ++ c :: t).takeWhile p = w ∧ (w ++ c :: t).dropWhile p = c :: t := by
  refine run_maximal hw ?_
  rintro _ ⟨⟩
  exact hc

/-! ## The steps, each on what it reads -/

theorem tagTokens_blanks_append {b : List Char} (hb : ∀ d ∈ b, isBlank d = true)
    (r : List Char) : tagTokens (b ++ r) = tagTokens r := by
  induction b with
  | nil => rfl
  | cons d b ih =>
    obtain ⟨hd, hb⟩ := List.forall_mem_cons.mp hb
    exact (tagTokens_cons_blank hd (b ++ r)).trans (ih hb)

/-- A character that begins nothing is dropped. -/
theorem tagTokens_cons_skip (hopen : c ≠ '<') (hword : isWord c = false) (cs : List Char) :
    tagTokens (c :: cs) = tagTokens cs := by
  have hnoName : ¬ ((c :: cs).head? = some '<' ∧ (c :: cs).tail.takeWhile isTagName ≠ []) :=
    fun h => hopen (Option.some.inj h.1)
  have hnoWord : (c :: cs).takeWhile isWord = [] :=
    List.takeWhile_cons_of_neg (Bool.eq_false_iff.mp hword)
  have hstep : tagStep (c :: cs) = (none, cs) := by
    rw [tagStep, if_neg hnoName, if_pos hnoWord]
    rfl
  rw [tagTokens_of_ne_nil (List.cons_ne_nil c cs), hstep]
  rfl

theorem tagTokens_name (hne : name ≠ []) (hname : ∀ d ∈ name, isTagName d = true)
    (hc : isTagName c = false) (t : List Char) :
    tagTokens ('<' :: (name ++ c :: t))
      = .tag (.ofList ('<' :: name)) :: tagTokens (c :: t) := by
  obtain ⟨htake, hdrop⟩ := run_of_all (t := t) hname hc
  have hstep : tagStep ('<' :: (name ++ c :: t))
      = (some (.tag (.ofList ('<' :: name))), c :: t) := by
    rw [tagStep, List.head?_cons, List.tail_cons, htake, hdrop, if_pos ⟨rfl, hne⟩]
  rw [tagTokens_of_ne_nil (List.cons_ne_nil _ _), hstep]
  rfl

/-- A word makes a token, whose kind the character after it decides. -/
theorem tagStep_word (hne : w ≠ []) (hw : ∀ d ∈ w, isWord d = true)
    (hc : isWord c = false) (t : List Char) :
    tagStep (w ++ c :: t)
      = if c = '=' then (some (.assignment (.ofList (w ++ ['=']))), afterValue t)
        else (some (.identifier (.ofList w)), c :: t) := by
  obtain ⟨htake, hdrop⟩ := run_of_all (t := t) hw hc
  have hnoName : ¬ ((w ++ c :: t).head? = some '<' ∧
      (w ++ c :: t).tail.takeWhile isTagName ≠ []) := by
    rintro ⟨hopen, -⟩
    rw [head?_append_of_ne_nil hne] at hopen
    have hmem : '<' ∈ w := List.mem_of_head? hopen
    exact absurd (hw _ hmem) (by decide)
  rw [tagStep, if_neg hnoName, htake, hdrop, if_neg hne, List.head?_cons, List.tail_cons]
  simp only [Option.some.injEq]

theorem afterValue_word (v : Word) (hc : isWord c = false) (t : List Char) :
    afterValue (v.chars ++ c :: t) = c :: t := by
  obtain ⟨d, ds, hv⟩ := List.exists_cons_of_ne_nil v.ne_nil
  have hd : isWord d = true := v.isWord d (hv ▸ List.mem_cons_self)
  have hquote : ¬ (d = '"' ∨ d = '\'') := by
    rintro (rfl | rfl)
    all_goals cases hd
  have hstart : (v.chars ++ c :: t).dropWhile (!isWord ·) = v.chars ++ c :: t := by
    rw [hv, List.cons_append, List.dropWhile_cons_of_neg]
    simp [hd]
  have hany : (v.chars ++ c :: t).any isWord = true :=
    List.any_eq_true.mpr ⟨d, hv ▸ List.mem_cons_self, hd⟩
  have hword : afterWord (v.chars ++ c :: t) = c :: t := by
    rw [afterWord, if_pos hany, hstart]
    exact (run_of_all v.isWord hc).2
  have hvalue : afterValue (v.chars ++ c :: t) = afterWord (v.chars ++ c :: t) := by
    rw [hv, List.cons_append, afterValue, if_neg hquote]
  exact hvalue.trans hword

/-- The first quote after a value in quotes is the one that closes it. -/
theorem afterValue_quotation (q : Quotation) (r : List Char) :
    afterValue (q.chars ++ r) = r := by
  have hvalue : afterValue (q.chars ++ r) = afterQuoted q.quote (q.body ++ ([q.quote] ++ r)) := by
    rw [Quotation.chars, List.cons_append, List.append_assoc, afterValue, if_pos q.quote_eq]
  rw [hvalue, afterQuoted_eq]
  by_cases hbody : q.body = []
  case pos => simp [hbody]
  case neg =>
    have hhead : (q.body ++ ([q.quote] ++ r)).head? ≠ some q.quote := by
      rw [head?_append_of_ne_nil hbody]
      intro hquote
      exact q.quote_not_mem (List.mem_of_head? hquote)
    have hfirst : ∀ u d v, q.body ++ [q.quote] = u ++ [d, q.quote] ++ v → d ≠ '\\' → v = [] := by
      intro u d v heq _
      by_contra hv
      -- what comes before the last character is the body, and would hold the quote
      have hbody : q.body = (u ++ [d, q.quote] ++ v).dropLast := by
        rw [← heq, List.dropLast_concat]
      refine q.quote_not_mem ?_
      rw [hbody, List.dropLast_append_of_ne_nil hv]
      simp
    rw [if_neg hhead, afterQuote?_append_of_first hbody q.getLast?_ne hfirst]
    rfl

theorem afterValue_value (v : Value) (hc : isWord c = false) (t : List Char) :
    afterValue (v.chars ++ c :: t) = c :: t := by
  cases v with
  | word w => exact afterValue_word w hc t
  | quoted q => exact afterValue_quotation q (c :: t)

/-- One attribute gives one token, and nothing of its value does. -/
theorem tagTokens_attribute (a : Attribute) (hc : isTagName c = false) (t : List Char) :
    ∃ token : Token, token.text = String.ofList a.label ∧
      tagTokens (a.chars ++ c :: t) = token :: tagTokens (c :: t) := by
  have hword : isWord c = false := not_isWord_of_not_isTagName hc
  have hne : ∀ x, a.name.chars ++ x ≠ [] := fun x =>
    List.append_ne_nil_of_left_ne_nil a.name.ne_nil x
  obtain ⟨name, _ | v⟩ := a
  case none =>
    refine ⟨.identifier (.ofList name.chars), by simp [Token.text, Attribute.label], ?_⟩
    have hstep := tagStep_word name.ne_nil name.isWord hword t
    rw [if_neg (ne_equals_of_not_isTagName hc)] at hstep
    simp only [Attribute.chars, Option.map_none, Option.getD_none, List.append_nil]
    rw [tagTokens_of_ne_nil (hne _), hstep]
    rfl
  case some =>
    refine ⟨.assignment (.ofList (name.chars ++ ['='])), rfl, ?_⟩
    have hstep := tagStep_word (c := '=') name.ne_nil name.isWord rfl (v.chars ++ c :: t)
    rw [if_pos rfl, afterValue_value v hword] at hstep
    simp only [Attribute.chars, Option.map_some, Option.getD_some, List.append_assoc,
      List.cons_append]
    rw [tagTokens_of_ne_nil (hne _), hstep]
    rfl

/-! ## The whole tag -/

namespace Ending

theorem exists_cons (e : Ending) : ∃ c t, e.chars = c :: t ∧ isTagName c = false := by
  obtain ⟨blanks, hblanks⟩ | ⟨gap⟩ := e
  case plain =>
    cases blanks with
    | nil => exact ⟨'>', [], rfl, rfl⟩
    | cons b bs => exact ⟨b, _, rfl, not_isTagName_of_isBlank (hblanks b List.mem_cons_self)⟩
  case slash =>
    obtain ⟨b, bs, hgap⟩ := List.exists_cons_of_ne_nil gap.ne_nil
    have hb : isBlank b = true := gap.isBlank b (hgap ▸ List.mem_cons_self)
    exact ⟨b, bs ++ ['/', '>'], by rw [chars, hgap]; rfl, not_isTagName_of_isBlank hb⟩

theorem tagTokens_chars (e : Ending) : tagTokens e.chars = [] := by
  have hclose : tagTokens ['>'] = [] :=
    (tagTokens_cons_skip (by decide) rfl []).trans tagTokens_nil
  cases e with
  | plain blanks hblanks => exact (tagTokens_blanks_append hblanks _).trans hclose
  | slash gap =>
    calc tagTokens (gap.chars ++ ['/', '>'])
      _ = tagTokens ['/', '>'] := tagTokens_blanks_append gap.isBlank _
      _ = tagTokens ['>'] := tagTokens_cons_skip (by decide) rfl _
      _ = [] := hclose

end Ending

theorem remainder_cons (g : Gap) (a : Attribute) (attributes : List (Gap × Attribute))
    (e : Ending) :
    remainder ((g, a) :: attributes) e = g.chars ++ (a.chars ++ remainder attributes e) := by
  simp [remainder]

/-- A name is followed by a blank or by the closing bracket. -/
theorem exists_remainder_cons (attributes : List (Gap × Attribute)) (e : Ending) :
    ∃ c t, remainder attributes e = c :: t ∧ isTagName c = false := by
  cases attributes with
  | nil => exact e.exists_cons
  | cons p attributes =>
    obtain ⟨b, bs, hgap⟩ := List.exists_cons_of_ne_nil p.1.ne_nil
    have hb : isBlank b = true := p.1.isBlank b (hgap ▸ List.mem_cons_self)
    refine ⟨b, bs ++ (p.2.chars ++ remainder attributes e), ?_, not_isTagName_of_isBlank hb⟩
    rw [remainder_cons, hgap]
    rfl

theorem texts_remainder (attributes : List (Gap × Attribute)) (e : Ending) :
    (tagTokens (remainder attributes e)).map Token.text
      = attributes.map fun p => String.ofList p.2.label := by
  induction attributes with
  | nil => exact congrArg (List.map _) e.tagTokens_chars
  | cons p attributes ih =>
    obtain ⟨g, a⟩ := p
    obtain ⟨c, t, hrest, hc⟩ := exists_remainder_cons attributes e
    obtain ⟨token, htoken, htokens⟩ := tagTokens_attribute a hc t
    rw [remainder_cons, tagTokens_blanks_append g.isBlank, hrest, htokens, ← hrest,
      List.map_cons, List.map_cons, htoken, ih]

/-- The tokens of a tag that is well formed are its name in angle brackets and, in their
order, the names of its attributes, with the equals sign for those that have a value. -/
theorem Element.texts_chars (m : Element) :
    (Tag.tokens m.chars).map Token.text
      = .ofList ('<' :: (m.name ++ ['>']))
        :: m.attributes.map fun p => String.ofList p.2.label := by
  have hname : ∀ c ∈ m.name, isTagName c = true := by
    intro c hc
    obtain ⟨hblank, hangle⟩ := m.name_plain c hc
    have hclose : c ≠ '>' := by
      rintro rfl
      cases hangle
    simp [isTagName, hblank, hclose]
  have htext : (Token.tag (.ofList ('<' :: m.name))).text = .ofList ('<' :: (m.name ++ ['>'])) := by
    rw [Token.text, ← List.cons_append, String.ofList_append]
  obtain ⟨c, t, hrest, hc⟩ := exists_remainder_cons m.attributes m.ending
  rw [Tag.tokens_eq, chars, hrest, tagTokens_name m.name_ne_nil hname hc, ← hrest,
    List.map_cons, texts_remainder, htext]

/-- The names of other attributes, and another quote, may stand in a value; nothing of it is a
token. -/
theorem Element.texts_chars_quoted :
    ∃ m : Element, m.chars = "<a b=\"c='d\"\ne />".toList ∧
      (Tag.tokens m.chars).map Token.text = ["<a>", "b=", "e"] := by
  let value : Quotation := ⟨'"', ['c', '=', '\'', 'd'], by simp, by simp, by simp [isAngle], by simp⟩
  let b : Attribute := ⟨⟨['b'], by simp, by simp [isWord]⟩, some (.quoted value)⟩
  let e : Attribute := ⟨⟨['e'], by simp, by simp [isWord]⟩, none⟩
  let space : Gap := ⟨[' '], by simp, by simp [isBlank]⟩
  let newline : Gap := ⟨['\n'], by simp, by simp [isBlank]⟩
  let m : Element := ⟨['a'], by simp, by simp [isBlank, isAngle], [(space, b), (newline, e)],
    .slash space⟩
  refine ⟨m, by decide, ?_⟩
  rw [m.texts_chars]
  rfl

end SourceTokens.Markup

/-
# `SourceTokens.Proofs.Direct` — the grammar, character by character

A second account of the token grammar, without expressions: each case looks at the
characters ahead of the cursor and says which tokens they give and what they leave.
`Direct.tokens` takes the first case that applies, over and over, from one end of a
text to the other.  It reads the text as a list and knows of the cursor only whether
it stands at the start of a line, which is to say before the first character or
after a newline.

Every case leaves an end of what follows the first character (`step_suffix`), which is why
the loop ends.
-/
import SourceTokens.Proofs.Runs
import SourceTokens.Rule

namespace SourceTokens.Direct

/-! ## Characters -/

/-- Tab, newline, form feed, carriage return or space. -/
def isBlank (c : Char) : Bool := decide (c ∈ ['\t', '\n', '\x0c', '\r', ' '])

def isWord (c : Char) : Bool := c.isAlphanum || c == '_'

def isRegular (c : Char) : Bool := isWord c || decide (c ∈ ['.', '@', '#', '/', '*'])

def isNumeral (c : Char) : Bool := c.isDigit || c == '.'

def isAngle (c : Char) : Bool := c == '<' || c == '>'

def isPunctuation (c : Char) : Bool :=
  decide (c ∈ [';', '\x7b', '\x7d', '(', ')', '[', ']'])

/-- What the name of a tag is made of. -/
def isTagName (c : Char) : Bool := !isBlank c && c != '>'

theorem not_isBlank_of_isRegular {c : Char} (h : isRegular c = true) : isBlank c = false := by
  have hblanks : ['\t', '\n', '\x0c', '\r', ' '].all (!isRegular ·) = true := by decide
  refine decide_eq_false ?_
  intro hmem
  have hother := List.all_eq_true.mp hblanks c hmem
  rw [h] at hother
  cases hother

theorem isRegular_of_isWord {c : Char} (h : isWord c = true) : isRegular c = true := by
  rw [isRegular, h]
  rfl

theorem isWord_of_isDigit {c : Char} (h : c.isDigit = true) : isWord c = true := by
  rw [isWord, Char.isAlphanum, h, Bool.or_true, Bool.true_or]

theorem ne_of_isBlank {c d : Char} (hc : isBlank c = true) (hd : isBlank d = false) :
    c ≠ d := by
  rintro rfl
  rw [hc] at hd
  cases hd

/-! ## Searching -/

/-- What follows the first occurrence of `w`. -/
def after? (w : List Char) : List Char → Option (List Char)
  | [] => if w = [] then some [] else none
  | c :: cs => if w <+: c :: cs then some ((c :: cs).drop w.length) else after? w cs

/-- What follows the first `quote` that comes after a character other than a
backslash. -/
def afterQuote? (quote : Char) : List Char → Option (List Char)
  | c :: d :: cs =>
    if c ≠ '\\' ∧ d = quote then some cs else afterQuote? quote (d :: cs)
  | _ => none

/-- What follows the first newline; nothing if there is none. -/
def afterLine (cs : List Char) : List Char := (cs.dropWhile (· ≠ '\n')).drop 1

/-- What follows a string whose opening quote has been read; nothing if it is not
closed. -/
def afterString (quote : Char) : List Char → List Char
  | [] => []
  | c :: cs => if c = quote then cs else (afterQuote? quote (c :: cs)).getD []

theorem afterQuote?_cons (quote c : Char) (cs : List Char) :
    afterQuote? quote (c :: cs)
      = if c ≠ '\\' ∧ cs.head? = some quote then some cs.tail else afterQuote? quote cs := by
  cases cs with
  | nil => simp [afterQuote?]
  | cons d cs =>
    rw [afterQuote?, List.head?_cons, List.tail_cons]
    simp only [Option.some.injEq]

theorem afterString_eq (quote : Char) (cs : List Char) :
    afterString quote cs
      = if cs.head? = some quote then cs.tail else (afterQuote? quote cs).getD [] := by
  cases cs with
  | nil => rfl
  | cons c cs =>
    rw [afterString, List.head?_cons, List.tail_cons]
    simp only [Option.some.injEq]

/-! ## Inside a tag -/

/-- What follows a quoted value whose opening quote has been read.  A value that is
not closed is left where it is. -/
def afterQuoted (quote : Char) : List Char → List Char
  | [] => []
  | c :: cs => if c = quote then cs else (afterQuote? quote (c :: cs)).getD (c :: cs)

theorem afterQuoted_eq (quote : Char) (cs : List Char) :
    afterQuoted quote cs
      = if cs.head? = some quote then cs.tail else (afterQuote? quote cs).getD cs := by
  cases cs with
  | nil => rfl
  | cons c cs =>
    rw [afterQuoted, List.head?_cons, List.tail_cons]
    simp only [Option.some.injEq]

/-- What follows the next name; all of it if there is none. -/
def afterWord (cs : List Char) : List Char :=
  if cs.any isWord then (cs.dropWhile (!isWord ·)).dropWhile isWord else cs

/-- What follows the value of an attribute. -/
def afterValue : List Char → List Char
  | [] => []
  | c :: cs => if c = '"' ∨ c = '\'' then afterQuoted c cs else afterWord (c :: cs)

/-- The token at the front of a tag, or of what is left of it, and what it
leaves. -/
def tagStep (cs : List Char) : Option Token × List Char :=
  let name := cs.tail.takeWhile isTagName
  let word := cs.takeWhile isWord
  let rest := cs.dropWhile isWord
  if cs.head? = some '<' ∧ name ≠ [] then
    (some (.tag (.ofList ('<' :: name))), cs.tail.dropWhile isTagName)
  else if word = [] then (none, cs.drop 1)
  else if rest.head? = some '=' then
    (some (.assignment (.ofList (word ++ ['=']))), afterValue rest.tail)
  else (some (.identifier (.ofList word)), rest)

/-! ## What is left is an end -/

theorem suffix_of_after? {w : List Char} {cs t : List Char} (h : after? w cs = some t) :
    t <:+ cs := by
  induction cs with
  | nil =>
    rw [after?] at h
    split at h
    · cases h; exact List.suffix_rfl
    · cases h
  | cons c cs ih =>
    rw [after?] at h
    split at h
    · cases h; exact List.drop_suffix _ _
    · exact (ih h).trans (List.suffix_cons c cs)

theorem suffix_of_afterQuote? {q : Char} {cs t : List Char}
    (h : afterQuote? q cs = some t) : t <:+ cs := by
  induction cs with
  | nil => cases h
  | cons c cs ih =>
    cases cs with
    | nil => cases h
    | cons d cs =>
      rw [afterQuote?] at h
      split at h
      · cases h
        exact (List.suffix_cons d _).trans (List.suffix_cons c _)
      · exact (ih h).trans (List.suffix_cons c _)

theorem getD_suffix {o : Option (List Char)} {d cs : List Char}
    (ho : ∀ t, o = some t → t <:+ cs) (hd : d <:+ cs) : o.getD d <:+ cs := by
  cases o with
  | none => exact hd
  | some t => exact ho t rfl

theorem afterLine_suffix (cs : List Char) : afterLine cs <:+ cs :=
  (List.drop_suffix 1 _).trans (List.dropWhile_suffix _)

theorem afterString_suffix (q : Char) (cs : List Char) : afterString q cs <:+ cs := by
  cases cs with
  | nil => exact List.suffix_rfl
  | cons c cs =>
    rw [afterString]
    split
    · exact List.suffix_cons c cs
    · exact getD_suffix (fun _ => suffix_of_afterQuote?) (List.nil_suffix)

theorem afterQuoted_suffix (q : Char) (cs : List Char) : afterQuoted q cs <:+ cs := by
  cases cs with
  | nil => exact List.suffix_rfl
  | cons c cs =>
    rw [afterQuoted]
    split
    · exact List.suffix_cons c cs
    · exact getD_suffix (fun _ => suffix_of_afterQuote?) List.suffix_rfl

theorem afterWord_suffix (cs : List Char) : afterWord cs <:+ cs := by
  rw [afterWord]
  split
  · exact (List.dropWhile_suffix _).trans (List.dropWhile_suffix _)
  · exact List.suffix_rfl

theorem afterValue_suffix (cs : List Char) : afterValue cs <:+ cs := by
  cases cs with
  | nil => exact List.suffix_rfl
  | cons c cs =>
    rw [afterValue]
    split
    · exact (afterQuoted_suffix c cs).trans (List.suffix_cons c cs)
    · exact afterWord_suffix _

theorem tagStep_suffix (cs : List Char) : (tagStep cs).2 <:+ cs.tail := by
  rw [tagStep]
  split
  · exact List.dropWhile_suffix _
  split
  · exact drop_suffix_tail Nat.one_pos cs
  rename_i hword
  have hrest := dropWhile_suffix_tail hword
  split
  · exact ((afterValue_suffix _).trans (List.tail_suffix _)).trans hrest
  · exact hrest

/-- The tokens of a tag, or of what is left of it. -/
def tagTokens (cs : List Char) : List Token :=
  if h : cs = [] then []
  else
    have := length_lt_of_suffix_tail h (tagStep_suffix cs)
    (tagStep cs).1.toList ++ tagTokens (tagStep cs).2
termination_by cs.length

theorem tagTokens_nil : tagTokens [] = [] := by
  rw [tagTokens, dif_pos rfl]

theorem tagTokens_of_ne_nil {cs : List Char} (h : cs ≠ []) :
    tagTokens cs = (tagStep cs).1.toList ++ tagTokens (tagStep cs).2 := by
  rw [tagTokens, dif_neg h]

theorem tagStep_cons_blank {c : Char} (hc : isBlank c = true) (cs : List Char) :
    tagStep (c :: cs) = (none, cs) := by
  have hword : (c :: cs).takeWhile isWord = [] := by
    rw [List.takeWhile_cons_of_neg]
    intro hword
    rw [not_isBlank_of_isRegular (isRegular_of_isWord hword)] at hc
    cases hc
  have hopen : ¬ ((c :: cs).head? = some '<' ∧ (c :: cs).tail.takeWhile isTagName ≠ []) :=
    fun h => ne_of_isBlank hc rfl (Option.some.inj h.1)
  rw [tagStep, if_neg hopen, if_pos hword]
  rfl

theorem tagTokens_cons_blank {c : Char} (hc : isBlank c = true) (cs : List Char) :
    tagTokens (c :: cs) = tagTokens cs := by
  rw [tagTokens_of_ne_nil (List.cons_ne_nil c cs), tagStep_cons_blank hc]
  rfl

/-! ## The cases -/

/-- `#!` with something after it on the line: the interpreter, if the line names
one. -/
def interpreterLine? (cs : List Char) : Option (List Token × List Char) :=
  let line := cs.takeWhile (· ≠ '\n')
  if "#!".toList <+: line ∧ line ≠ "#!".toList then
    some ((Interpreter.ofLine? line).toList.map .interpreter, cs.dropWhile (· ≠ '\n'))
  else none

/-- What begins a comment up to the end of its line. -/
def lineMarks : List String := ["// ", "-- ", "# ", "% ", "\" "]

/-- At the start of a line, blanks and a mark: nothing of the line. -/
def lineComment? (lineStart : Bool) (cs : List Char) :
    Option (List Token × List Char) :=
  let text := cs.dropWhile isBlank
  if lineStart ∧ ∃ w ∈ lineMarks, w.toList <+: text then some ([], afterLine text)
  else none

/-- The brackets of block comments. -/
def brackets : List (String × String) :=
  [("/*", "*/"), ("<!--", "-->"), ("\x7b-", "-\x7d"), ("(*", "*)"),
    ("\"\"\"", "\"\"\""), ("\'\'\'", "\'\'\'")]

/-- A block comment, to the end of the text if it is not closed. -/
def blockComment? (cs : List Char) : Option (List Token × List Char) :=
  brackets.findSome? fun b =>
    if b.1.toList <+: cs then
      some ([], (after? b.2.toList (cs.drop b.1.toList.length)).getD [])
    else none

/-- A string, to the end of the text if it is not closed. -/
def string? (quote : Char) : List Char → Option (List Token × List Char)
  | [] => none
  | c :: cs => if c = quote then some ([], afterString quote cs) else none

/-- Digits and points after a digit, which `0x` may precede. -/
def number? (cs : List Char) : Option (List Token × List Char) :=
  if "0x".toList <+: cs ∧ (cs.drop 2).head?.any Char.isDigit then
    some ([], (cs.drop 2).dropWhile isNumeral)
  else if cs.head?.any Char.isDigit then some ([], cs.dropWhile isNumeral)
  else none

/-- An opening bracket, a character that is neither blank nor a bracket, and
everything through the closing bracket, if that is the next one; then the rest. -/
def span? : List Char → Option (List Char × List Char)
  | '<' :: c :: cs =>
    if !isBlank c ∧ !isAngle c ∧ (cs.dropWhile (!isAngle ·)).head? = some '>' then
      some ('<' :: c :: (cs.takeWhile (!isAngle ·) ++ ['>']),
        (cs.dropWhile (!isAngle ·)).tail)
    else none
  | _ => none

def punctuation? : List Char → Option (List Token × List Char)
  | [] => none
  | c :: cs => if isPunctuation c then some ([.punctuation (.ofList [c])], cs) else none

def regular? (cs : List Char) : Option (List Token × List Char) :=
  if cs.takeWhile isRegular = [] then none
  else some ([.regular (.ofList (cs.takeWhile isRegular))], cs.dropWhile isRegular)

/-- The operators, a longer one before its beginning. -/
def operators : List String :=
  ["<<", "<", "+", "-", "*", "/", "%", "&&", "&", "||", "|"]

def operator? (cs : List Char) : Option (List Token × List Char) :=
  operators.findSome? fun w =>
    if w.toList <+: cs then some ([.operator w], cs.drop w.toList.length) else none

/-- What a rule reads off the text ahead of a cursor. -/
def read (rule : Rule) (lineStart : Bool) (cs : List Char) :
    Option (List Token × List Char) :=
  match rule with
  | .interpreterLine => interpreterLine? cs
  | .lineComment => lineComment? lineStart cs
  | .blockComment => blockComment? cs
  | .doubleQuoted => string? '"' cs
  | .singleQuoted => string? '\'' cs
  | .number => number? cs
  | .tag => (span? cs).map fun (span, rest) => (tagTokens span, rest)
  | .punctuation => punctuation? cs
  | .regular => regular? cs
  | .operator => operator? cs

/-- The order in which the cases are tried. -/
def order : List Rule :=
  [.interpreterLine, .lineComment, .blockComment, .doubleQuoted, .singleQuoted, .number,
    .tag, .punctuation, .regular, .operator]

/-- One step: the tokens of the first case that applies, and what it leaves.  A
character to which none applies is dropped. -/
def step (lineStart : Bool) (cs : List Char) : List Token × List Char :=
  (order.findSome? (read · lineStart cs)).getD ([], cs.tail)

/-- The case that a step takes, if one applies. -/
def taken? (lineStart : Bool) (cs : List Char) : Option Rule :=
  order.find? fun rule => (read rule lineStart cs).isSome

theorem mem_order (rule : Rule) : rule ∈ order := by
  cases rule <;> decide

section

variable {rule : Rule} {lineStart : Bool} {cs : List Char}

/-- A case is taken when those before it do not apply. -/
theorem step_of_read {before after : List Rule} (horder : order = before ++ rule :: after)
    {a : List Token × List Char} (hread : read rule lineStart cs = some a)
    (hbefore : ∀ r ∈ before, read r lineStart cs = none) : step lineStart cs = a := by
  have hfirst : order.findSome? (read · lineStart cs) = some a :=
    List.findSome?_eq_some_iff.mpr ⟨before, rule, after, horder, hread, hbefore⟩
  rw [step, hfirst]
  rfl

theorem read_of_taken? (h : taken? lineStart cs = some rule) :
    read rule lineStart cs = some (step lineStart cs) := by
  obtain ⟨happlies, before, after, horder, hbefore⟩ :=
    List.find?_eq_some_iff_append.mp h
  obtain ⟨a, ha⟩ := Option.isSome_iff_exists.mp happlies
  rw [ha, step_of_read horder ha]
  intro r hr
  simpa using hbefore r hr

/-- The cases tried before the one taken do not apply. -/
theorem read_eq_none_of_earlier (earlier : Rule) (h : taken? lineStart cs = some rule)
    (hlt : order.idxOf earlier < order.idxOf rule) : read earlier lineStart cs = none := by
  obtain ⟨_, before, after, horder, hbefore⟩ := List.find?_eq_some_iff_append.mp h
  have hmem : earlier ∈ before := by
    by_cases hmem : earlier ∈ before
    · exact hmem
    rw [horder, List.idxOf_append, if_neg hmem, List.idxOf_append] at hlt
    split at hlt
    case isTrue hrule => have := List.idxOf_lt_length_of_mem hrule; omega
    case isFalse => rw [List.idxOf_cons_self] at hlt; omega
  simpa using hbefore earlier hmem

theorem read_eq_none (h : taken? lineStart cs = none) (rule : Rule) :
    read rule lineStart cs = none := by
  simpa using List.find?_eq_none.mp h rule (mem_order rule)

theorem step_of_taken?_eq_none (h : taken? lineStart cs = none) :
    step lineStart cs = ([], cs.tail) := by
  have hnone : order.findSome? (read · lineStart cs) = none := by
    refine List.findSome?_eq_none_iff.mpr ?_
    intro rule _
    exact read_eq_none h rule
  rw [step, hnone]
  rfl

end

/-! ## The loop -/

theorem afterLine_suffix_tail (cs : List Char) : afterLine cs <:+ cs.tail := by
  cases cs with
  | nil => exact List.suffix_rfl
  | cons c cs =>
    rw [afterLine, List.dropWhile_cons]
    split
    · exact afterLine_suffix cs
    · exact List.suffix_rfl

theorem length_afterLine_lt {w : String} {cs : List Char} (hw : w ∈ lineMarks)
    (h : w.toList <+: cs) : (afterLine cs).length < cs.length := by
  have hmarks : ∀ w ∈ lineMarks, w.toList ≠ [] := by decide
  refine length_lt_of_suffix_tail ?_ (afterLine_suffix_tail cs)
  rintro rfl
  exact hmarks w hw (List.prefix_nil.mp h)

theorem any_isNumeral {o : Option Char} (h : o.any Char.isDigit = true) :
    o.any isNumeral = true := by
  cases o with
  | none => cases h
  | some c =>
    have hc : c.isDigit = true := h
    simp [isNumeral, hc]

/-! ## What the cases ask for -/

theorem findSome?_ite {β γ : Type} (l : List β) (p : β → Prop) [DecidablePred p]
    (g : β → γ) : (l.findSome? fun b => if p b then some (g b) else none)
      = (l.find? fun b => p b).map g := by
  induction l with
  | nil => rfl
  | cons b l ih =>
    rw [List.findSome?_cons, List.find?_cons]
    by_cases hb : p b
    · rw [if_pos hb, decide_eq_true hb]
      rfl
    · rw [if_neg hb, decide_eq_false hb]
      exact ih

theorem findSome?_ite_eq_none_iff {β γ : Type} {l : List β} {p : β → Prop} [DecidablePred p]
    {g : β → γ} : (l.findSome? fun b => if p b then some (g b) else none) = none
      ↔ ∀ b ∈ l, ¬ p b := by
  rw [findSome?_ite, Option.map_eq_none_iff, List.find?_eq_none]
  simp only [decide_eq_true_eq]

theorem interpreterLine?_eq_none {cs : List Char} (h : ¬ "#!".toList <+: cs) :
    interpreterLine? cs = none :=
  if_neg fun hline => h (hline.1.trans (List.takeWhile_prefix _))

theorem blockComment?_eq_none_iff {cs : List Char} :
    blockComment? cs = none ↔ ∀ b ∈ brackets, ¬ b.1.toList <+: cs := findSome?_ite_eq_none_iff

theorem operator?_eq_none_iff {cs : List Char} :
    operator? cs = none ↔ ∀ w ∈ operators, ¬ w.toList <+: cs := findSome?_ite_eq_none_iff

theorem string?_of_head?_ne {quote : Char} {cs : List Char} (h : cs.head? ≠ some quote) :
    string? quote cs = none := by
  cases cs with
  | nil => rfl
  | cons c cs => exact if_neg fun hc => h (congrArg some hc)

theorem findSome?_congr {β γ : Type} {f g : β → Option γ} {l : List β}
    (h : ∀ b ∈ l, f b = g b) : l.findSome? f = l.findSome? g := by
  induction l with
  | nil => rfl
  | cons b l ih =>
    obtain ⟨hb, hl⟩ := List.forall_mem_cons.mp h
    rw [List.findSome?_cons, List.findSome?_cons, hb, ih hl]

theorem of_find?_eq_some {β : Type} {l : List β} {p : β → Prop} [DecidablePred p] {b : β}
    (h : (l.find? fun b => p b) = some b) : b ∈ l ∧ p b := by
  have hp := List.find?_some h
  exact ⟨List.mem_of_find?_eq_some h, of_decide_eq_true hp⟩

theorem number_eq_nil {cs : List Char} {a : List Token × List Char}
    (h : number? cs = some a) : a = ([], a.2) := by
  rw [number?] at h
  split at h
  · cases h; rfl
  · obtain ⟨_, h⟩ := Option.ite_none_right_eq_some.mp h
    cases h; rfl

/-- What begins with a digit is a number, and nothing else is. -/
theorem number?_eq_none_iff {cs : List Char} :
    number? cs = none ↔ cs.head?.any Char.isDigit = false := by
  rw [number?]
  constructor
  · intro h
    split at h
    · cases h
    · split at h
      case isTrue => cases h
      case isFalse hdigit => simpa using hdigit
  · intro h
    rw [if_neg, if_neg]
    · rw [h]; exact Bool.false_ne_true
    · rintro ⟨⟨t, rfl⟩, _⟩
      cases h

theorem span?_cons_of_ne {c : Char} (hc : c ≠ '<') (cs : List Char) :
    span? (c :: cs) = none := by
  unfold span?
  split
  case h_1 h => exact absurd (List.cons.inj h).1 hc
  case h_2 => rfl

theorem span?_of_head?_ne {cs : List Char} (h : cs.head? ≠ some '<') : span? cs = none := by
  cases cs with
  | nil => rfl
  | cons c cs => exact span?_cons_of_ne (fun hc => h (congrArg some hc)) cs

/-- A span is an opening bracket, a character that is neither blank nor a bracket,
others that are no brackets, and a closing bracket. -/
theorem of_span? {cs w t : List Char} (h : span? cs = some (w, t)) :
    ∃ c m, w = '<' :: c :: (m ++ ['>']) ∧ cs = w ++ t ∧
      isBlank c = false ∧ isAngle c = false ∧ ∀ d ∈ m, isAngle d = false := by
  unfold span? at h
  split at h
  case h_2 => cases h
  case h_1 c cs =>
    obtain ⟨⟨hblank, hangle, hclose⟩, h⟩ := Option.ite_none_right_eq_some.mp h
    cases h
    refine ⟨c, cs.takeWhile (!isAngle ·), rfl, ?_, by simpa using hblank,
      by simpa using hangle, ?_⟩
    · obtain ⟨rest, hrest⟩ : ∃ rest, cs.dropWhile (!isAngle ·) = '>' :: rest :=
        List.head?_eq_some_iff.mp hclose
      rw [hrest]
      have := List.takeWhile_append_dropWhile (p := (!isAngle ·)) (l := cs)
      rw [hrest] at this
      simpa using this.symm
    · intro d hd
      simpa using of_mem_takeWhile hd

theorem span?_eq_some {c : Char} {m t : List Char} (hblank : isBlank c = false)
    (hangle : isAngle c = false) (hm : ∀ d ∈ m, isAngle d = false) :
    span? ('<' :: c :: (m ++ ['>']) ++ t) = some ('<' :: c :: (m ++ ['>']), t) := by
  have hpos : ∀ d ∈ m, (!isAngle d) = true := by
    intro d hd
    rw [hm d hd]
    rfl
  have hclose : (!isAngle '>') = false := by decide
  have htake : (m ++ '>' :: t).takeWhile (!isAngle ·) = m := by
    rw [List.takeWhile_append_of_pos hpos, List.takeWhile_cons, hclose]
    exact List.append_nil m
  have hdrop : (m ++ '>' :: t).dropWhile (!isAngle ·) = '>' :: t := by
    rw [List.dropWhile_append_of_pos hpos, List.dropWhile_cons, hclose]
    rfl
  show span? ('<' :: c :: (m ++ ['>'] ++ t)) = _
  rw [List.append_assoc, List.singleton_append, span?, htake, hdrop, hblank, hangle]
  rfl

/-- A case leaves an end of what follows the first character. -/
theorem read_suffix {rule : Rule} {lineStart : Bool} {cs t : List Char}
    {ts : List Token} (h : read rule lineStart cs = some (ts, t)) : t <:+ cs.tail := by
  cases rule with
  | interpreterLine =>
    obtain ⟨hline, h⟩ := Option.ite_none_right_eq_some.mp h
    cases h
    refine dropWhile_suffix_tail ?_
    intro hnil
    rw [hnil] at hline
    exact absurd hline.1 (by decide)
  | lineComment =>
    obtain ⟨_, h⟩ := Option.ite_none_right_eq_some.mp h
    cases h
    exact (afterLine_suffix_tail _).trans (tail_suffix_tail (List.dropWhile_suffix _))
  | blockComment =>
    obtain ⟨b, hb, h⟩ := List.exists_of_findSome?_eq_some h
    obtain ⟨_, h⟩ := Option.ite_none_right_eq_some.mp h
    cases h
    have hpos : ∀ b ∈ brackets, 0 < b.1.toList.length := by decide
    exact (getD_suffix (fun _ => suffix_of_after?) List.nil_suffix).trans
      (drop_suffix_tail (hpos b hb) cs)
  | doubleQuoted | singleQuoted =>
    cases cs with
    | nil => cases h
    | cons c cs =>
      obtain ⟨_, h⟩ := Option.ite_none_right_eq_some.mp h
      cases h
      exact afterString_suffix _ cs
  | number =>
    change number? cs = _ at h
    rw [number?] at h
    split at h
    · cases h
      exact (List.dropWhile_suffix _).trans (drop_suffix_tail Nat.two_pos cs)
    · obtain ⟨hdigit, h⟩ := Option.ite_none_right_eq_some.mp h
      cases h
      exact dropWhile_suffix_tail (head?_takeWhile_ne_nil (any_isNumeral hdigit))
  | tag =>
    obtain ⟨⟨w, u⟩, hw, h⟩ := Option.map_eq_some_iff.mp h
    cases h
    obtain ⟨c, m, rfl, rfl, _⟩ := of_span? hw
    exact List.suffix_append (c :: (m ++ ['>'])) t
  | punctuation =>
    cases cs with
    | nil => cases h
    | cons c cs =>
      obtain ⟨_, h⟩ := Option.ite_none_right_eq_some.mp h
      cases h
      exact List.suffix_rfl
  | regular =>
    obtain ⟨hrun, h⟩ := Option.ite_none_left_eq_some.mp h
    cases h
    exact dropWhile_suffix_tail hrun
  | operator =>
    obtain ⟨w, hw, h⟩ := List.exists_of_findSome?_eq_some h
    obtain ⟨_, h⟩ := Option.ite_none_right_eq_some.mp h
    cases h
    have hpos : ∀ w ∈ operators, 0 < w.toList.length := by decide
    exact drop_suffix_tail (hpos w hw) cs

theorem step_suffix (lineStart : Bool) (cs : List Char) :
    (step lineStart cs).2 <:+ cs.tail := by
  cases h : taken? lineStart cs with
  | none => exact ⟨[], congrArg (·.2) (step_of_taken?_eq_none h)⟩
  | some rule => exact read_suffix (read_of_taken? h)

/-- Whether the cursor stands at the start of a line after what was read before
`t`. -/
def endsLine (cs t : List Char) : Bool :=
  (cs.take (cs.length - t.length)).getLast? == some '\n'

theorem endsLine_append_of_ne_nil {u : List Char} (hu : u ≠ []) (w r : List Char) :
    endsLine (w ++ (u ++ r)) r = (u.getLast? == some '\n') := by
  have hread : (w ++ (u ++ r)).take ((w ++ (u ++ r)).length - r.length) = w ++ u := by
    rw [← List.append_assoc, List.length_append, Nat.add_sub_cancel, List.take_left]
  rw [endsLine, hread, List.getLast?_append, List.getLast?_eq_some_getLast hu]
  rfl

/-- The tokens of the text ahead of a cursor. -/
def tokensFrom (lineStart : Bool) (cs : List Char) : List Token :=
  if h : cs = [] then []
  else
    let t := (step lineStart cs).2
    have := length_lt_of_suffix_tail h (step_suffix lineStart cs)
    (step lineStart cs).1 ++ tokensFrom (endsLine cs t) t
termination_by cs.length

theorem tokensFrom_nil (lineStart : Bool) : tokensFrom lineStart [] = [] := by
  rw [tokensFrom, dif_pos rfl]

theorem tokensFrom_of_ne_nil {lineStart : Bool} {cs : List Char} (h : cs ≠ []) :
    tokensFrom lineStart cs
      = (step lineStart cs).1
        ++ tokensFrom (endsLine cs (step lineStart cs).2) (step lineStart cs).2 := by
  rw [tokensFrom, dif_neg h]

/-- The tokens of a text. -/
def tokens (text : String) : List Token := tokensFrom true text.toList

end SourceTokens.Direct

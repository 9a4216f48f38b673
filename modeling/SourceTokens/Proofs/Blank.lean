/-
# `SourceTokens.Proofs.Blank` — blank space around a source

No token begins with a blank, and a comment up to the end of its line may begin with as
many as there are.  So blanks in front of a source are dropped one by one, or they belong
to the comment that the source begins with: the start of a line makes a difference only
to a comment, and the comment would have been found before the cursor came there.

After a source, blanks that begin with a newline are dropped too, unless the last step
takes them with what it passes over: a comment or a string that is not closed.  `Trails`
says so of one step.  What ends with its line, a mark or an operator does not go past
the newline (`read_append_newline`), whatever follows there.
-/
import SourceTokens.Proofs.Alphabet
import SourceTokens.Proofs.Prefix

namespace SourceTokens

namespace Direct

variable {rule : Rule} {lineStart : Bool} {c : Char} {cs r t w x y : List Char}

/-! ## Blanks in front -/

/-- No rule but that of comments to the end of the line begins with a blank. -/
theorem read_cons_blank (hc : isBlank c = true) (hrule : rule ≠ .lineComment) (cs : List Char) :
    read rule lineStart (c :: cs) = none := by
  have hregular : isRegular c = false := by
    cases h : isRegular c with
    | false => rfl
    | true => rw [not_isBlank_of_isRegular h] at hc; cases hc
  cases rule with
  | lineComment => exact absurd rfl hrule
  | interpreterLine =>
    exact interpreterLine?_eq_none (Lexicon.not_prefix_cons_blank rfl hc cs)
  | blockComment =>
    have hopening : ∀ b ∈ brackets, b.1.toList.head?.any (!isBlank ·) = true := by decide
    refine blockComment?_eq_none_iff.mpr ?_
    intro b hb
    exact Lexicon.not_prefix_cons_blank (hopening b hb) hc cs
  | doubleQuoted | singleQuoted => exact if_neg (ne_of_isBlank hc rfl)
  | number =>
    refine number?_eq_none_iff.mpr ?_
    show c.isDigit = false
    cases h : c.isDigit with
    | false => rfl
    | true => rw [isRegular_of_isWord (isWord_of_isDigit h)] at hregular; cases hregular
  | tag =>
    show (span? (c :: cs)).map _ = none
    rw [span?_cons_of_ne (ne_of_isBlank hc rfl)]
    rfl
  | punctuation =>
    refine if_neg ?_
    intro hbracket
    have hclass : TextClass.bracket.Contains [c] := ⟨c, hbracket, rfl⟩
    exact ne_of_isBlank hc (hclass.not_isBlank c List.mem_cons_self) rfl
  | regular =>
    refine if_pos ?_
    rw [List.takeWhile_cons_of_neg]
    rw [hregular]
    exact Bool.false_ne_true
  | operator =>
    have hoperators : ∀ w ∈ operators, w.toList.head?.any (!isBlank ·) = true := by decide
    refine operator?_eq_none_iff.mpr ?_
    intro w hw
    exact Lexicon.not_prefix_cons_blank (hoperators w hw) hc cs

/-- A blank that begins no comment is dropped. -/
theorem step_cons_blank (hc : isBlank c = true)
    (hcomment : lineComment? lineStart (c :: cs) = none) :
    step lineStart (c :: cs) = ([], cs) := by
  refine step_of_taken?_eq_none (List.find?_eq_none.mpr ?_)
  intro rule _
  rw [Bool.not_eq_true, Option.isSome_eq_false_iff, Option.isNone_iff_eq_none]
  by_cases hrule : rule = .lineComment
  · subst hrule
    exact hcomment
  · exact read_cons_blank hc hrule cs

theorem tokensFrom_cons_blank (hc : isBlank c = true)
    (hcomment : lineComment? lineStart (c :: cs) = none) :
    tokensFrom lineStart (c :: cs) = tokensFrom (c == '\n') cs := by
  have hline : endsLine (c :: cs) cs = (c == '\n') :=
    endsLine_append_of_ne_nil (List.cons_ne_nil c []) [] cs
  rw [tokensFrom_of_ne_nil (List.cons_ne_nil c cs), step_cons_blank hc hcomment, hline]
  rfl

/-- Where no comment begins it does not matter whether a line starts. -/
theorem tokensFrom_of_lineComment?_eq_none (h : lineComment? true cs = none)
    (lineStart : Bool) : tokensFrom lineStart cs = tokensFrom true cs := by
  by_cases hcs : cs = []
  · rw [hcs, tokensFrom_nil, tokensFrom_nil]
  · rw [tokensFrom_of_ne_nil hcs, tokensFrom_of_ne_nil hcs, step_of_lineComment?_eq_none h]

/-- Blanks in front of a text belong to the comment that it begins with, or they are
dropped. -/
theorem tokensFrom_true_cons_blank (hc : isBlank c = true) (cs : List Char) :
    tokensFrom true (c :: cs) = tokensFrom true cs := by
  have hcons := lineComment?_cons hc true cs
  cases h : lineComment? true cs with
  | none =>
    rw [tokensFrom_cons_blank hc (hcons.trans h), tokensFrom_of_lineComment?_eq_none h]
  | some a =>
    obtain ⟨ts, u⟩ := a
    have hlt := length_lt_of_lineComment? h
    have hsuffix : u <:+ cs.tail := read_suffix (show read .lineComment true cs = _ from h)
    obtain ⟨v, rfl⟩ := hsuffix.trans (List.tail_suffix cs)
    have hv : v ≠ [] := by
      rintro rfl
      exact Nat.lt_irrefl _ hlt
    rw [tokensFrom_of_ne_nil (List.cons_ne_nil c _),
      tokensFrom_of_ne_nil (List.append_ne_nil_of_left_ne_nil hv u),
      step_of_lineComment? (hcons.trans h), step_of_lineComment? h]
    show ts ++ tokensFrom (endsLine ([c] ++ (v ++ u)) u) u
      = ts ++ tokensFrom (endsLine ([] ++ (v ++ u)) u) u
    rw [endsLine_append_of_ne_nil hv, endsLine_append_of_ne_nil hv]

theorem tokensFrom_blanks_append (hw : ∀ c ∈ w, isBlank c = true) (cs : List Char) :
    tokensFrom true (w ++ cs) = tokensFrom true cs := by
  induction w with
  | nil => rfl
  | cons c w ih =>
    obtain ⟨hc, hw⟩ := List.forall_mem_cons.mp hw
    rw [List.cons_append, tokensFrom_true_cons_blank hc, ih hw]

/-! ## What does not go past a newline -/

/-- The rules that read nothing past the end of a line. -/
def inLine : List Rule := [.interpreterLine, .number, .punctuation, .regular, .operator]

theorem interpreterLine?_append_newline (x r : List Char) :
    interpreterLine? (x ++ '\n' :: r)
      = (interpreterLine? x).map fun (ts, y) => (ts, y ++ '\n' :: r) := by
  obtain ⟨htake, hdrop⟩ := run_append_cons (p := (· ≠ '\n')) (c := '\n') rfl x r
  rw [interpreterLine?, interpreterLine?, htake, hdrop]
  split <;> rfl

theorem number?_append_newline (x r : List Char) :
    number? (x ++ '\n' :: r) = (number? x).map fun (ts, y) => (ts, y ++ '\n' :: r) := by
  have hmark : '\n' ∉ "0x".toList := by decide
  have hrun := fun x => (run_append_cons (p := isNumeral) (c := '\n') rfl x r).2
  have hdigit : ∀ y : List Char,
      (y ++ '\n' :: r).head?.any Char.isDigit = y.head?.any Char.isDigit := by
    intro y
    cases y <;> rfl
  have hdrop : "0x".toList <+: x → (x ++ '\n' :: r).drop 2 = x.drop 2 ++ '\n' :: r :=
    fun h => List.drop_append_of_le_length h.length_le
  have hiff : ("0x".toList <+: x ++ '\n' :: r ∧ ((x ++ '\n' :: r).drop 2).head?.any Char.isDigit)
      ↔ ("0x".toList <+: x ∧ (x.drop 2).head?.any Char.isDigit) := by
    rw [prefix_append_cons_iff hmark]
    refine and_congr_right ?_
    intro hfront
    rw [hdrop hfront, hdigit]
  rw [number?, number?]
  by_cases hhex : "0x".toList <+: x ∧ (x.drop 2).head?.any Char.isDigit
  · rw [if_pos (hiff.mpr hhex), if_pos hhex, hdrop hhex.1, hrun]
    rfl
  · rw [if_neg fun h => hhex (hiff.mp h), if_neg hhex, hdigit, hrun]
    split <;> rfl

theorem regular?_append_newline (x r : List Char) :
    regular? (x ++ '\n' :: r) = (regular? x).map fun (ts, y) => (ts, y ++ '\n' :: r) := by
  obtain ⟨htake, hdrop⟩ := run_append_cons (p := isRegular) (c := '\n') rfl x r
  rw [regular?, regular?, htake, hdrop]
  split <;> rfl

theorem operator?_append_newline (x r : List Char) :
    operator? (x ++ '\n' :: r) = (operator? x).map fun (ts, y) => (ts, y ++ '\n' :: r) := by
  have hoperators : ∀ w ∈ operators, '\n' ∉ w.toList := by decide
  rw [operator?, operator?, List.map_findSome?]
  refine findSome?_congr ?_
  intro w hw
  have hiff := prefix_append_cons_iff (hoperators w hw) x r
  show _ = Option.map _ (if _ then _ else _)
  by_cases hfront : w.toList <+: x
  · rw [if_pos (hiff.mpr hfront), if_pos hfront,
      List.drop_append_of_le_length hfront.length_le]
    rfl
  · rw [if_neg fun h => hfront (hiff.mp h), if_neg hfront]
    rfl

theorem read_append_newline (hrule : rule ∈ inLine) (x r : List Char) :
    read rule lineStart (x ++ '\n' :: r)
      = (read rule lineStart x).map fun (ts, y) => (ts, y ++ '\n' :: r) := by
  have hcases : rule = .interpreterLine ∨ rule = .number ∨ rule = .punctuation
      ∨ rule = .regular ∨ rule = .operator := by
    simpa [inLine] using hrule
  rcases hcases with rfl | rfl | rfl | rfl | rfl
  · exact interpreterLine?_append_newline x r
  · exact number?_append_newline x r
  · cases x with
    | nil => rfl
    | cons c x =>
      show (if _ then _ else _) = Option.map _ (if _ then _ else _)
      split <;> rfl
  · exact regular?_append_newline x r
  · exact operator?_append_newline x r

/-! ## Blanks behind -/

/-- What is made of a text with the blanks `t` after it is what is made of the text alone,
and `t` is left as well; or all of the text is read, and with it some of `t` or all. -/
def Trails (t : List Char) (alone whole : Option (List Token × List Char)) : Prop :=
  whole = (alone.map fun (ts, y) => (ts, y ++ t))
    ∨ ∃ ts u, alone = some (ts, []) ∧ whole = some (ts, u) ∧ u <:+ t

theorem Trails.findSome? {β : Type} {f g : β → Option (List Token × List Char)} {l : List β}
    (h : ∀ b ∈ l, Trails t (f b) (g b)) : Trails t (l.findSome? f) (l.findSome? g) := by
  induction l with
  | nil => exact .inl rfl
  | cons b l ih =>
    obtain ⟨hb, hl⟩ := List.forall_mem_cons.mp h
    rw [List.findSome?_cons, List.findSome?_cons]
    rcases hb with hsame | ⟨ts, u, halone, hwhole, hu⟩
    · rw [hsame]
      cases f b with
      | none => exact ih hl
      | some a => exact .inl rfl
    · rw [halone, hwhole]
      exact .inr ⟨ts, u, rfl, rfl, hu⟩

theorem lineComment?_blanks (hw : ∀ c ∈ w, isBlank c = true) (lineStart : Bool) :
    lineComment? lineStart w = none := by
  have hmarks : ∀ m ∈ lineMarks, m.toList ≠ [] := by decide
  rw [lineComment?, List.dropWhile_eq_nil_iff.mpr hw]
  refine if_neg ?_
  rintro ⟨_, m, hm, hfront⟩
  exact hmarks m hm (List.prefix_nil.mp hfront)

/-- Blanks have no tokens. -/
theorem tokensFrom_blanks (hw : ∀ c ∈ w, isBlank c = true) (lineStart : Bool) :
    tokensFrom lineStart w = [] := by
  induction w generalizing lineStart with
  | nil => exact tokensFrom_nil lineStart
  | cons c w ih =>
    have htail := (List.forall_mem_cons.mp hw).2
    rw [tokensFrom_cons_blank (hw c List.mem_cons_self) (lineComment?_blanks hw lineStart),
      ih htail]

theorem after?_blanks (hw : ∀ c ∈ w, isBlank c = true) {m : List Char}
    (hm : m.head?.any (!isBlank ·) = true) : after? m w = none := by
  induction w with
  | nil =>
    refine if_neg ?_
    rintro rfl
    cases hm
  | cons c w ih =>
    obtain ⟨hc, hw⟩ := List.forall_mem_cons.mp hw
    rw [after?, if_neg (Lexicon.not_prefix_cons_blank hm hc w), ih hw]

theorem afterQuote?_eq_none {quote : Char} (h : quote ∉ cs.tail) :
    afterQuote? quote cs = none := by
  induction cs with
  | nil => rfl
  | cons c cs ih =>
    cases cs with
    | nil => rfl
    | cons d cs =>
      have hd : d ≠ quote := fun hd => h (hd ▸ List.mem_cons_self)
      rw [afterQuote?, if_neg fun hquote => hd hquote.2]
      exact ih fun hmem => h (List.mem_cons_of_mem d hmem)

section

variable (hw : ∀ c ∈ w, isBlank c = true)
include hw

theorem lineComment?_trails (lineStart : Bool) (x : List Char) :
    Trails ('\n' :: w) (lineComment? lineStart x) (lineComment? lineStart (x ++ '\n' :: w)) := by
  have hmarks : ∀ m ∈ lineMarks, '\n' ∉ m.toList := by decide
  have hblanks : ∀ c ∈ '\n' :: w, isBlank c = true := List.forall_mem_cons.mpr ⟨rfl, hw⟩
  by_cases hx : x.dropWhile isBlank = []
  · have hall := List.dropWhile_eq_nil_iff.mp hx
    rw [lineComment?_blanks hall, lineComment?_blanks (List.forall_mem_append.mpr ⟨hall, hblanks⟩)]
    exact .inl rfl
  rw [lineComment?, lineComment?, (run_append_of_ne_nil hx _).2]
  generalize x.dropWhile isBlank = text
  have hiff : (lineStart = true ∧ ∃ m ∈ lineMarks, m.toList <+: text ++ '\n' :: w)
      ↔ (lineStart = true ∧ ∃ m ∈ lineMarks, m.toList <+: text) := by
    refine and_congr_right fun _ => exists_congr fun m => and_congr_right ?_
    intro hm
    exact prefix_append_cons_iff (hmarks m hm) text w
  by_cases hmark : lineStart = true ∧ ∃ m ∈ lineMarks, m.toList <+: text
  · rw [if_pos (hiff.mpr hmark), if_pos hmark]
    by_cases hline : '\n' ∈ text
    · rw [afterLine_append_of_mem hline]
      exact .inl rfl
    · -- the line ends with the newline that comes after the text
      have hend : afterLine text = [] := by
        rw [← List.append_nil text, Rule.afterLine_append hline]
        rfl
      rw [hend, Rule.afterLine_append hline]
      exact .inr ⟨[], w, rfl, rfl, List.suffix_cons _ w⟩
  · rw [if_neg fun h => hmark (hiff.mp h), if_neg hmark]
    exact .inl rfl

theorem after?_append_blanks {m : List Char} (hm : m.head?.any (!isBlank ·) = true)
    (hnewline : '\n' ∉ m) (hnone : after? m x = none) : after? m (x ++ '\n' :: w) = none := by
  induction x with
  | nil => exact after?_blanks (List.forall_mem_cons.mpr ⟨rfl, hw⟩) hm
  | cons c x ih =>
    rw [after?] at hnone
    rw [List.cons_append, after?]
    split at hnone
    case isTrue => cases hnone
    case isFalse hmiss =>
      rw [← List.cons_append, if_neg fun h => hmiss ((prefix_append_cons_iff hnewline _ w).mp h)]
      exact ih hnone

theorem blockComment?_trails (x : List Char) :
    Trails ('\n' :: w) (blockComment? x) (blockComment? (x ++ '\n' :: w)) := by
  have htable : ∀ b ∈ brackets, '\n' ∉ b.1.toList ∧ '\n' ∉ b.2.toList ∧ b.2.toList ≠ [] ∧
      b.2.toList.head?.any (!isBlank ·) = true := by
    decide
  refine Trails.findSome? ?_
  intro b hb
  obtain ⟨hopen, hclose, hne, hhead⟩ := htable b hb
  have hiff := prefix_append_cons_iff hopen x w
  by_cases hfront : b.1.toList <+: x
  · rw [if_pos (hiff.mpr hfront), if_pos hfront,
      List.drop_append_of_le_length hfront.length_le]
    cases h : after? b.2.toList (x.drop b.1.toList.length) with
    | some y =>
      rw [after?_append_of_some hne h]
      exact .inl rfl
    | none =>
      rw [after?_append_blanks hw hhead hclose h]
      exact .inr ⟨[], [], rfl, rfl, List.nil_suffix⟩
  · rw [if_neg fun h => hfront (hiff.mp h), if_neg hfront]
    exact .inl rfl

theorem not_mem_newline_blanks {c : Char} (hc : isBlank c = false) : c ∉ '\n' :: w := by
  have hblanks : ∀ c ∈ '\n' :: w, isBlank c = true := List.forall_mem_cons.mpr ⟨rfl, hw⟩
  intro hmem
  rw [hblanks c hmem] at hc
  cases hc

theorem afterQuote?_append_blanks {quote : Char} (hquote : isBlank quote = false)
    (hnone : afterQuote? quote x = none) : afterQuote? quote (x ++ '\n' :: w) = none := by
  have hmem := not_mem_newline_blanks hw hquote
  induction x with
  | nil => exact afterQuote?_eq_none fun h => hmem (List.mem_of_mem_tail h)
  | cons c x ih =>
    cases x with
    | nil => exact afterQuote?_eq_none hmem
    | cons d x =>
      rw [afterQuote?] at hnone
      rw [List.cons_append, List.cons_append, afterQuote?]
      split at hnone
      case isTrue => cases hnone
      case isFalse hmiss =>
        rw [if_neg hmiss]
        exact ih hnone

theorem string?_trails {quote : Char} (hquote : isBlank quote = false) (hx : x ≠ []) :
    Trails ('\n' :: w) (string? quote x) (string? quote (x ++ '\n' :: w)) := by
  obtain ⟨c, x, rfl⟩ := List.exists_cons_of_ne_nil hx
  rw [List.cons_append, string?, string?]
  by_cases hc : c = quote
  · rw [if_pos hc, if_pos hc]
    cases x with
    | nil =>
      have hnone : afterQuote? quote ('\n' :: w) = none :=
        afterQuote?_append_blanks (x := []) hw hquote rfl
      have hline : '\n' ≠ quote := ne_of_isBlank rfl hquote
      rw [List.nil_append, afterString, afterString, if_neg hline, hnone]
      exact .inr ⟨[], [], rfl, rfl, List.nil_suffix⟩
    | cons d x =>
      rw [List.cons_append, afterString, afterString]
      by_cases hd : d = quote
      · rw [if_pos hd, if_pos hd]
        exact .inl rfl
      · rw [if_neg hd, if_neg hd, ← List.cons_append]
        cases h : afterQuote? quote (d :: x) with
        | some y =>
          rw [afterQuote?_append_of_some h]
          exact .inl rfl
        | none =>
          rw [afterQuote?_append_blanks hw hquote h]
          exact .inr ⟨[], [], rfl, rfl, List.nil_suffix⟩
  · rw [if_neg hc, if_neg hc]
    exact .inl rfl

/-- No span is closed by a blank. -/
theorem span?_append_blanks (x : List Char) :
    span? (x ++ '\n' :: w) = (span? x).map fun (v, y) => (v, y ++ '\n' :: w) := by
  rcases span?_append x ('\n' :: w) with h | ⟨v, u, h, hlt⟩
  · exact h
  · exfalso
    obtain ⟨c, m, rfl, hcs, _⟩ := of_span? h
    have hclose : '>' :: u <:+ x ++ '\n' :: w := by
      rw [hcs]
      exact ⟨'<' :: c :: m, by simp⟩
    have hmem : '>' :: u <:+ '\n' :: w :=
      List.suffix_of_suffix_length_le hclose (List.suffix_append x _) hlt
    exact not_mem_newline_blanks hw rfl (hmem.subset List.mem_cons_self)

theorem read_trails (lineStart : Bool) (hx : x ≠ []) (rule : Rule) :
    Trails ('\n' :: w) (read rule lineStart x) (read rule lineStart (x ++ '\n' :: w)) := by
  cases rule with
  | lineComment => exact lineComment?_trails hw lineStart x
  | blockComment => exact blockComment?_trails hw x
  | doubleQuoted | singleQuoted => exact string?_trails hw rfl hx
  | tag =>
    left
    show (span? (x ++ '\n' :: w)).map _ = ((span? x).map _).map _
    rw [span?_append_blanks hw, Option.map_map, Option.map_map]
    rfl
  | interpreterLine | number | punctuation | regular | operator =>
    exact .inl (read_append_newline (by decide) x w)

/-- A step leaves the blanks that come after a text, or it reads the text to its end. -/
theorem step_trails (lineStart : Bool) (hx : x ≠ []) :
    step lineStart (x ++ '\n' :: w) = ((step lineStart x).1, (step lineStart x).2 ++ '\n' :: w)
      ∨ (step lineStart x).2 = [] ∧ ∃ u, u <:+ '\n' :: w ∧
          step lineStart (x ++ '\n' :: w) = ((step lineStart x).1, u) := by
  have hfirst : Trails ('\n' :: w) (order.findSome? (read · lineStart x))
      (order.findSome? (read · lineStart (x ++ '\n' :: w))) :=
    Trails.findSome? fun rule _ => read_trails hw lineStart hx rule
  rw [step, step]
  rcases hfirst with hsame | ⟨ts, u, halone, hwhole, hu⟩
  · left
    rw [hsame]
    cases order.findSome? (read · lineStart x) with
    | none =>
      obtain ⟨c, x, rfl⟩ := List.exists_cons_of_ne_nil hx
      rfl
    | some a => rfl
  · right
    rw [halone, hwhole]
    exact ⟨rfl, u, hu, rfl⟩

/-- Blanks that come after a text, on lines of their own, have no tokens and change none. -/
theorem tokensFrom_append_blanks (lineStart : Bool) (x : List Char) :
    tokensFrom lineStart (x ++ '\n' :: w) = tokensFrom lineStart x := by
  have hblanks : ∀ c ∈ '\n' :: w, isBlank c = true := List.forall_mem_cons.mpr ⟨rfl, hw⟩
  fun_induction tokensFrom lineStart x with
  | case1 lineStart => exact tokensFrom_blanks hblanks lineStart
  | case2 lineStart x hx t _ ih =>
    rw [tokensFrom_of_ne_nil (List.append_ne_nil_of_left_ne_nil hx _)]
    rcases step_trails hw lineStart hx with hleft | ⟨hend, u, hu, hread⟩
    · have hsuffix := (step_suffix lineStart x).trans (List.tail_suffix x)
      rw [hleft, endsLine_append hsuffix]
      exact congrArg (_ ++ ·) ih
    · have hnone : tokensFrom (endsLine x t) t = [] := by
        rw [show t = [] from hend, tokensFrom_nil]
      rw [hread, hnone, tokensFrom_blanks fun c hc => hblanks c (hu.subset hc)]

end

end Direct

/-! ## The tokens -/

namespace Source

open Direct

/-- Blanks in front of a source, and blanks after it on lines of their own, make no
difference to its tokens. -/
theorem tokens_blanks (text blanks : String) (h : ∀ c ∈ blanks.toList, isBlank c = true) :
    tokens (blanks ++ text) = tokens text ∧ tokens (text ++ "\n" ++ blanks) = tokens text := by
  simp only [tokens_eq_tokensFrom, String.toList_append]
  constructor
  · exact tokensFrom_blanks_append h text.toList
  · rw [List.append_assoc]
    exact tokensFrom_append_blanks h true text.toList

/-- A comment after blanks, and a string that is not closed before blanks. -/
theorem tokens_blanks_unclosed :
    (∀ c ∈ " \n\t".toList, isBlank c = true) ∧
      tokens (" \n\t" ++ "# a\nb \"c") = tokens "# a\nb \"c" ∧
      tokens ("# a\nb \"c" ++ "\n" ++ " \n\t") = tokens "# a\nb \"c" := by
  have hblanks : ∀ c ∈ " \n\t".toList, isBlank c = true := List.all_eq_true.mp (by decide)
  exact ⟨hblanks, tokens_blanks "# a\nb \"c" " \n\t" hblanks⟩

end Source

end SourceTokens

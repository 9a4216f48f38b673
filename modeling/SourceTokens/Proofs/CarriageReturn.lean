/-
# `SourceTokens.Proofs.CarriageReturn` — ends of lines

Lines may end with a newline or with a carriage return and a newline: `crlf` puts a
carriage return before every newline of a text, and the tokens stay what they are.  The
grammar tells the two characters apart in three places only.  A line starts after a
newline, a comment to the end of the line ends with one, and an interpreter line ends
before one; and only there, in a text that has a `#!`, does it matter that something
stands before the newline.

Elsewhere the two are blanks, so that whatever reads `cs` reads `crlf cs` as well and
leaves `crlf t` where it left `t` (`read_crlf`).  The exception is a newline that is
dropped: it takes two steps to drop it with its carriage return.
-/
import SourceTokens.Proofs.Blank

namespace SourceTokens

namespace Direct

variable {rule : Rule} {lineStart : Bool} {c quote : Char} {p : Char → Bool}
  {cs t v w : List Char}

/-- A text with a carriage return before every newline. -/
def crlf (cs : List Char) : List Char :=
  cs.flatMap fun c => if c = '\n' then ['\r', '\n'] else [c]

theorem crlf_newline (cs : List Char) : crlf ('\n' :: cs) = '\r' :: '\n' :: crlf cs := rfl

theorem crlf_cons (hc : c ≠ '\n') (cs : List Char) : crlf (c :: cs) = c :: crlf cs := by
  rw [crlf, List.flatMap_cons, if_neg hc]
  rfl

theorem crlf_ne_nil (c : Char) (cs : List Char) : crlf (c :: cs) ≠ [] := by
  by_cases hc : c = '\n'
  · subst hc
    exact List.cons_ne_nil _ _
  · rw [crlf_cons hc]
    exact List.cons_ne_nil _ _

theorem crlf_append (v t : List Char) : crlf (v ++ t) = crlf v ++ crlf t :=
  List.flatMap_append

theorem crlf_of_not_mem (h : '\n' ∉ cs) : crlf cs = cs := by
  induction cs with
  | nil => rfl
  | cons c cs ih =>
    have hc : c ≠ '\n' := fun hc => h (hc ▸ List.mem_cons_self)
    rw [crlf_cons hc, ih fun hmem => h (List.mem_cons_of_mem c hmem)]

/-! ## Runs -/

section

variable (hp : p '\r' = p '\n')
include hp

theorem takeWhile_crlf (cs : List Char) : (crlf cs).takeWhile p = crlf (cs.takeWhile p) := by
  induction cs with
  | nil => rfl
  | cons c cs ih =>
    by_cases hc : c = '\n'
    · subst hc
      rw [crlf_newline, List.takeWhile_cons, List.takeWhile_cons, List.takeWhile_cons, hp, ih]
      split <;> rfl
    · rw [crlf_cons hc, List.takeWhile_cons, List.takeWhile_cons, ih]
      split
      · exact (crlf_cons hc _).symm
      · rfl

theorem dropWhile_crlf (cs : List Char) : (crlf cs).dropWhile p = crlf (cs.dropWhile p) := by
  induction cs with
  | nil => rfl
  | cons c cs ih =>
    by_cases hc : c = '\n'
    · subst hc
      rw [crlf_newline, List.dropWhile_cons, List.dropWhile_cons, List.dropWhile_cons, hp, ih]
      split <;> rfl
    · rw [crlf_cons hc, List.dropWhile_cons, List.dropWhile_cons, ih]
      split
      · rfl
      · exact (crlf_cons hc _).symm

theorem any_crlf (cs : List Char) : (crlf cs).any p = cs.any p := by
  induction cs with
  | nil => rfl
  | cons c cs ih =>
    by_cases hc : c = '\n'
    · subst hc
      rw [crlf_newline, List.any_cons, List.any_cons, List.any_cons, hp, ih,
        ← Bool.or_assoc, Bool.or_self]
    · rw [crlf_cons hc, List.any_cons, List.any_cons, ih]

theorem head?_any_crlf (cs : List Char) : (crlf cs).head?.any p = cs.head?.any p := by
  cases cs with
  | nil => rfl
  | cons c cs =>
    by_cases hc : c = '\n'
    · subst hc
      exact hp
    · rw [crlf_cons hc]
      rfl

end

/-- A run that has neither kind of character in it. -/
theorem takeWhile_crlf_of_not (hreturn : p '\r' = false) (hnewline : p '\n' = false)
    (cs : List Char) : (crlf cs).takeWhile p = cs.takeWhile p := by
  rw [takeWhile_crlf (hreturn.trans hnewline.symm), crlf_of_not_mem]
  intro hmem
  rw [of_mem_takeWhile hmem] at hnewline
  cases hnewline

/-! ## Marks and searches -/

/-- What ends no line. -/
def Inline (w : List Char) : Prop := ∀ c ∈ w, c ≠ '\r' ∧ c ≠ '\n'

instance : DecidablePred Inline := List.decidableBAll _

theorem Inline.crlf_eq (hw : Inline w) : crlf w = w :=
  crlf_of_not_mem fun hmem => (hw _ hmem).2 rfl

theorem prefix_crlf_iff (hw : Inline w) (cs : List Char) : w <+: crlf cs ↔ w <+: cs := by
  induction w generalizing cs with
  | nil => exact iff_of_true List.nil_prefix List.nil_prefix
  | cons d w ih =>
    obtain ⟨⟨hreturn, hnewline⟩, hw⟩ := List.forall_mem_cons.mp hw
    cases cs with
    | nil => rfl
    | cons c cs =>
      by_cases hc : c = '\n'
      · subst hc
        rw [crlf_newline, List.cons_prefix_cons, List.cons_prefix_cons]
        exact iff_of_false (fun h => hreturn h.1) (fun h => hnewline h.1)
      · rw [crlf_cons hc, List.cons_prefix_cons, List.cons_prefix_cons, ih hw]

theorem drop_crlf (hw : Inline w) (h : w <+: cs) :
    (crlf cs).drop w.length = crlf (cs.drop w.length) := by
  obtain ⟨t, rfl⟩ := h
  rw [crlf_append, hw.crlf_eq, List.drop_left, List.drop_left]

theorem head?_crlf_iff (hreturn : c ≠ '\r') (hnewline : c ≠ '\n') (cs : List Char) :
    (crlf cs).head? = some c ↔ cs.head? = some c := by
  have hc : Inline [c] := by
    intro d hd
    rw [List.mem_singleton.mp hd]
    exact ⟨hreturn, hnewline⟩
  have hfront : ∀ cs : List Char, cs.head? = some c ↔ [c] <+: cs := by
    intro cs
    cases cs with
    | nil => simp
    | cons d cs => simp [List.cons_prefix_cons, eq_comm]
  rw [hfront, hfront, prefix_crlf_iff hc]

theorem tail_crlf (hc : c ≠ '\n') (h : cs.head? = some c) : (crlf cs).tail = crlf cs.tail := by
  obtain ⟨t, rfl⟩ := List.head?_eq_some_iff.mp h
  rw [crlf_cons hc]
  rfl

theorem after?_crlf (hw : Inline w) (hne : w ≠ []) (cs : List Char) :
    after? w (crlf cs) = (after? w cs).map crlf := by
  induction cs with
  | nil =>
    show (if w = [] then _ else _) = Option.map _ (if w = [] then _ else _)
    rw [if_neg hne]
    rfl
  | cons c cs ih =>
    by_cases hc : c = '\n'
    · subst hc
      have hmiss : ∀ d cs, d = '\r' ∨ d = '\n' → ¬ w <+: d :: cs := by
        intro d cs hd hfront
        obtain ⟨e, w, rfl⟩ := List.exists_cons_of_ne_nil hne
        obtain ⟨rfl, _⟩ := List.cons_prefix_cons.mp hfront
        exact hd.elim (hw e List.mem_cons_self).1 (hw e List.mem_cons_self).2
      rw [crlf_newline, after?, if_neg (hmiss _ _ (.inl rfl)), after?,
        if_neg (hmiss _ _ (.inr rfl)), after?, if_neg (hmiss _ _ (.inr rfl)), ih]
    · have hiff := prefix_crlf_iff hw (c :: cs)
      have hdrop : w <+: c :: cs → _ := drop_crlf hw
      rw [crlf_cons hc] at hiff hdrop ⊢
      rw [after?, after?]
      by_cases hfront : w <+: c :: cs
      · rw [if_pos (hiff.mpr hfront), if_pos hfront, hdrop hfront]
        rfl
      · rw [if_neg fun h => hfront (hiff.mp h), if_neg hfront, ih]

theorem afterLine_crlf (cs : List Char) : afterLine (crlf cs) = crlf (afterLine cs) := by
  induction cs with
  | nil => rfl
  | cons c cs ih =>
    by_cases hc : c = '\n'
    · subst hc
      rfl
    · have hskip : '\n' ∉ [c] := fun h => hc (List.mem_singleton.mp h).symm
      have hstep : ∀ t, afterLine (c :: t) = afterLine t := Rule.afterLine_append hskip
      rw [crlf_cons hc, hstep, hstep, ih]

section

variable (hreturn : quote ≠ '\r') (hnewline : quote ≠ '\n')
include hreturn hnewline

theorem afterQuote?_crlf (cs : List Char) :
    afterQuote? quote (crlf cs) = (afterQuote? quote cs).map crlf := by
  induction cs with
  | nil => rfl
  | cons c cs ih =>
    have hiff := head?_crlf_iff hreturn hnewline cs
    have hstep : afterQuote? quote (c :: crlf cs) = (afterQuote? quote (c :: cs)).map crlf := by
      rw [afterQuote?_cons, afterQuote?_cons]
      by_cases h : c ≠ '\\' ∧ cs.head? = some quote
      · rw [if_pos ⟨h.1, hiff.mpr h.2⟩, if_pos h, tail_crlf hnewline h.2]
        rfl
      · rw [if_neg fun h' => h ⟨h'.1, hiff.mp h'.2⟩, if_neg h, ih]
    by_cases hc : c = '\n'
    · subst hc
      have hmiss : ¬ ('\r' ≠ '\\' ∧ ('\n' :: crlf cs).head? = some quote) :=
        fun h => hnewline (Option.some.inj h.2).symm
      rw [crlf_newline, afterQuote?_cons, if_neg hmiss, hstep]
    · rw [crlf_cons hc, hstep]

/-- Past a quote that comes at once, or past the next one, or else to `d`. -/
theorem afterQuote?_getD_crlf (cs d : List Char) :
    (if (crlf cs).head? = some quote then (crlf cs).tail
        else (afterQuote? quote (crlf cs)).getD (crlf d))
      = crlf (if cs.head? = some quote then cs.tail else (afterQuote? quote cs).getD d) := by
  have hiff := head?_crlf_iff hreturn hnewline cs
  by_cases h : cs.head? = some quote
  · rw [if_pos (hiff.mpr h), if_pos h, tail_crlf hnewline h]
  · rw [if_neg fun h' => h (hiff.mp h'), if_neg h, afterQuote?_crlf hreturn hnewline]
    cases afterQuote? quote cs <;> rfl

theorem afterString_crlf (cs : List Char) :
    afterString quote (crlf cs) = crlf (afterString quote cs) := by
  rw [afterString_eq, afterString_eq]
  exact afterQuote?_getD_crlf hreturn hnewline cs []

theorem afterQuoted_crlf (cs : List Char) :
    afterQuoted quote (crlf cs) = crlf (afterQuoted quote cs) := by
  rw [afterQuoted_eq, afterQuoted_eq]
  exact afterQuote?_getD_crlf hreturn hnewline cs cs

end

/-! ## Inside a tag -/

theorem afterWord_crlf (cs : List Char) : afterWord (crlf cs) = crlf (afterWord cs) := by
  rw [afterWord, afterWord, any_crlf rfl]
  split
  · rw [dropWhile_crlf (p := fun c => !isWord c) rfl, dropWhile_crlf (p := isWord) rfl]
  · rfl

theorem afterValue_crlf (cs : List Char) : afterValue (crlf cs) = crlf (afterValue cs) := by
  cases cs with
  | nil => rfl
  | cons c cs =>
    by_cases hc : c = '\n'
    · subst hc
      exact afterWord_crlf ('\n' :: cs)
    · rw [crlf_cons hc, afterValue, afterValue]
      split
      case isTrue hquote =>
        have hreturn : c ≠ '\r' := by
          rintro rfl
          exact absurd hquote (by decide)
        exact afterQuoted_crlf hreturn hc cs
      case isFalse =>
        rw [← crlf_cons hc]
        exact afterWord_crlf (c :: cs)

theorem tagStep_crlf (hc : c ≠ '\n') (cs : List Char) :
    tagStep (crlf (c :: cs)) = ((tagStep (c :: cs)).1, crlf (tagStep (c :: cs)).2) := by
  have hname := takeWhile_crlf_of_not (p := isTagName) rfl rfl cs
  have hword := takeWhile_crlf_of_not (p := isWord) rfl rfl (c :: cs)
  have hrest := dropWhile_crlf (p := isWord) rfl (c :: cs)
  have hassign := head?_crlf_iff (c := '=') (by decide) (by decide) ((c :: cs).dropWhile isWord)
  rw [crlf_cons hc] at hword hrest ⊢
  have hopen : ((c :: crlf cs).head? = some '<' ∧ (c :: crlf cs).tail.takeWhile isTagName ≠ [])
      ↔ ((c :: cs).head? = some '<' ∧ (c :: cs).tail.takeWhile isTagName ≠ []) := by
    rw [List.tail_cons, hname]
    rfl
  by_cases htag : (c :: cs).head? = some '<' ∧ (c :: cs).tail.takeWhile isTagName ≠ []
  · rw [tagStep, if_pos (hopen.mpr htag), tagStep, if_pos htag, List.tail_cons, hname,
      dropWhile_crlf (p := isTagName) rfl]
    rfl
  rw [tagStep, if_neg fun h => htag (hopen.mp h), tagStep, if_neg htag, hword]
  by_cases hnil : (c :: cs).takeWhile isWord = []
  · rw [if_pos hnil, if_pos hnil]
    rfl
  rw [if_neg hnil, if_neg hnil, hrest]
  by_cases heq : ((c :: cs).dropWhile isWord).head? = some '='
  · rw [if_pos (hassign.mpr heq), if_pos heq, tail_crlf (by decide) heq, afterValue_crlf]
  · rw [if_neg fun h => heq (hassign.mp h), if_neg heq]

theorem tagTokens_crlf (cs : List Char) : tagTokens (crlf cs) = tagTokens cs := by
  fun_induction tagTokens cs with
  | case1 =>
    rw [show crlf [] = [] from rfl, tagTokens_nil]
  | case2 cs hne _ ih =>
    obtain ⟨c, cs, rfl⟩ := List.exists_cons_of_ne_nil hne
    by_cases hc : c = '\n'
    · subst hc
      rw [tagStep_cons_blank rfl] at ih ⊢
      rw [crlf_newline, tagTokens_cons_blank rfl, tagTokens_cons_blank rfl, ih]
      rfl
    · rw [tagTokens_of_ne_nil (crlf_ne_nil c cs), tagStep_crlf hc, ih]

/-! ## The cases -/

theorem lineComment?_crlf (lineStart : Bool) (cs : List Char) :
    lineComment? lineStart (crlf cs)
      = (lineComment? lineStart cs).map fun (ts, t) => (ts, crlf t) := by
  have hmarks : ∀ m ∈ lineMarks, Inline m.toList := by decide
  rw [lineComment?, lineComment?, dropWhile_crlf (p := isBlank) rfl]
  generalize cs.dropWhile isBlank = text
  have hiff : (lineStart = true ∧ ∃ m ∈ lineMarks, m.toList <+: crlf text)
      ↔ (lineStart = true ∧ ∃ m ∈ lineMarks, m.toList <+: text) := by
    refine and_congr_right fun _ => exists_congr fun m => and_congr_right ?_
    intro hm
    exact prefix_crlf_iff (hmarks m hm) text
  by_cases hmark : lineStart = true ∧ ∃ m ∈ lineMarks, m.toList <+: text
  · rw [if_pos (hiff.mpr hmark), if_pos hmark, afterLine_crlf]
    rfl
  · rw [if_neg fun h => hmark (hiff.mp h), if_neg hmark]
    rfl

/-- Marks at the front, and what is made of the text after them. -/
theorem findSome?_crlf {α β : Type} {f : β → List Char} {g : β → α}
    (after : β → List Char → List Char) {l : List β} (hinline : ∀ b ∈ l, Inline (f b))
    (hafter : ∀ b ∈ l, ∀ y, after b (crlf y) = crlf (after b y)) (cs : List Char) :
    (l.findSome? fun b =>
        if f b <+: crlf cs then some (g b, after b ((crlf cs).drop (f b).length)) else none)
      = (l.findSome? fun b =>
          if f b <+: cs then some (g b, after b (cs.drop (f b).length)) else none).map
        fun (a, t) => (a, crlf t) := by
  rw [List.map_findSome?]
  refine findSome?_congr ?_
  intro b hb
  have hiff := prefix_crlf_iff (hinline b hb) cs
  show _ = Option.map _ (if _ then _ else _)
  by_cases hfront : f b <+: cs
  · rw [if_pos (hiff.mpr hfront), if_pos hfront, drop_crlf (hinline b hb) hfront, hafter b hb]
    rfl
  · rw [if_neg fun h => hfront (hiff.mp h), if_neg hfront]
    rfl

theorem blockComment?_crlf (cs : List Char) :
    blockComment? (crlf cs) = (blockComment? cs).map fun (ts, t) => (ts, crlf t) := by
  have htable : ∀ b ∈ brackets, Inline b.1.toList ∧ Inline b.2.toList ∧ b.2.toList ≠ [] := by
    decide
  refine findSome?_crlf (fun (b : String × String) y => (after? b.2.toList y).getD [])
    (fun b hb => (htable b hb).1) ?_ cs
  intro b hb y
  obtain ⟨_, hclose, hne⟩ := htable b hb
  show (after? b.2.toList (crlf y)).getD [] = crlf ((after? b.2.toList y).getD [])
  rw [after?_crlf hclose hne]
  cases after? b.2.toList y <;> rfl

theorem operator?_crlf (cs : List Char) :
    operator? (crlf cs) = (operator? cs).map fun (ts, t) => (ts, crlf t) := by
  have hoperators : ∀ w ∈ operators, Inline w.toList := by decide
  exact findSome?_crlf (fun _ y => y) hoperators (fun _ _ _ => rfl) cs

theorem number?_crlf (cs : List Char) :
    number? (crlf cs) = (number? cs).map fun (ts, t) => (ts, crlf t) := by
  have hmark : Inline "0x".toList := by decide
  have hdigit := fun cs => head?_any_crlf (p := Char.isDigit) rfl cs
  have hrun := fun cs => dropWhile_crlf (p := isNumeral) rfl cs
  have hdrop : "0x".toList <+: cs → (crlf cs).drop 2 = crlf (cs.drop 2) := drop_crlf hmark
  have hiff : ("0x".toList <+: crlf cs ∧ ((crlf cs).drop 2).head?.any Char.isDigit)
      ↔ ("0x".toList <+: cs ∧ (cs.drop 2).head?.any Char.isDigit) := by
    rw [prefix_crlf_iff hmark]
    refine and_congr_right ?_
    intro hfront
    rw [hdrop hfront, hdigit]
  rw [number?, number?]
  by_cases hhex : "0x".toList <+: cs ∧ (cs.drop 2).head?.any Char.isDigit
  · rw [if_pos (hiff.mpr hhex), if_pos hhex, hdrop hhex.1, hrun]
    rfl
  · rw [if_neg fun h => hhex (hiff.mp h), if_neg hhex, hdigit, hrun]
    split <;> rfl

theorem span?_crlf (cs : List Char) :
    span? (crlf cs) = (span? cs).map fun (w, t) => (crlf w, crlf t) := by
  cases cs with
  | nil => rfl
  | cons a cs =>
    by_cases ha : a = '<'
    case neg =>
      rw [span?_cons_of_ne ha]
      by_cases hline : a = '\n'
      · subst hline
        exact span?_cons_of_ne (by decide) _
      · rw [crlf_cons hline, span?_cons_of_ne ha]
        rfl
    case pos =>
      subst ha
      cases cs with
      | nil => rfl
      | cons c cs =>
        by_cases hc : c = '\n'
        · subst hc
          show span? ('<' :: '\r' :: '\n' :: crlf cs) = Option.map _ (span? ('<' :: '\n' :: cs))
          rw [span?, span?, if_neg, if_neg]
          · rfl
          · exact fun h => absurd h.1 (by decide)
          · exact fun h => absurd h.1 (by decide)
        · have hiff := head?_crlf_iff (c := '>') (by decide) (by decide)
            (cs.dropWhile (!isAngle ·))
          rw [crlf_cons (by decide), crlf_cons hc, span?, span?,
            dropWhile_crlf (p := (!isAngle ·)) rfl, takeWhile_crlf (p := (!isAngle ·)) rfl]
          by_cases hspan : (!isBlank c) = true ∧ (!isAngle c) = true ∧
              (cs.dropWhile (!isAngle ·)).head? = some '>'
          · rw [if_pos ⟨hspan.1, hspan.2.1, hiff.mpr hspan.2.2⟩, if_pos hspan,
              tail_crlf (by decide) hspan.2.2]
            show some _ = some (crlf _, _)
            rw [crlf_cons (by decide), crlf_cons hc, crlf_append]
            rfl
          · rw [if_neg fun h => hspan ⟨h.1, h.2.1, hiff.mp h.2.2⟩, if_neg hspan]
            rfl

/-- What does not begin with an end of a line, and not with `#!`, is read whatever the
ends of lines are. -/
theorem read_crlf (hc : c ≠ '\n') (hmark : ¬ "#!".toList <+: c :: cs) (rule : Rule)
    (lineStart : Bool) :
    read rule lineStart (crlf (c :: cs))
      = (read rule lineStart (c :: cs)).map fun (ts, t) => (ts, crlf t) := by
  have hstring : ∀ quote, quote ≠ '\r' → quote ≠ '\n' →
      string? quote (crlf (c :: cs))
        = (string? quote (c :: cs)).map fun (ts, t) => (ts, crlf t) := by
    intro quote hreturn hnewline
    rw [crlf_cons hc, string?, string?, afterString_crlf hreturn hnewline]
    split <;> rfl
  cases rule with
  | interpreterLine =>
    have hcrlf : ¬ "#!".toList <+: crlf (c :: cs) := by
      rwa [prefix_crlf_iff (by decide)]
    exact (interpreterLine?_eq_none hcrlf).trans
      (congrArg (Option.map _) (interpreterLine?_eq_none hmark)).symm
  | lineComment => exact lineComment?_crlf lineStart _
  | blockComment => exact blockComment?_crlf _
  | doubleQuoted => exact hstring '"' (by decide) (by decide)
  | singleQuoted => exact hstring '\'' (by decide) (by decide)
  | number => exact number?_crlf _
  | tag =>
    show (span? (crlf (c :: cs))).map _ = ((span? (c :: cs)).map _).map _
    rw [span?_crlf, Option.map_map, Option.map_map]
    refine congrArg (Option.map · _) (funext fun a => ?_)
    exact congrArg (·, crlf a.2) (tagTokens_crlf a.1)
  | punctuation =>
    rw [crlf_cons hc]
    show (if _ then _ else _) = Option.map _ (if _ then _ else _)
    split <;> rfl
  | regular =>
    show regular? (crlf (c :: cs)) = Option.map _ (regular? (c :: cs))
    rw [regular?, regular?, takeWhile_crlf_of_not (p := isRegular) rfl rfl,
      dropWhile_crlf (p := isRegular) rfl]
    split <;> rfl
  | operator => exact operator?_crlf _

/-! ## The run -/

theorem step_crlf (hc : c ≠ '\n') (hmark : ¬ "#!".toList <+: c :: cs) (lineStart : Bool) :
    step lineStart (crlf (c :: cs))
      = ((step lineStart (c :: cs)).1, crlf (step lineStart (c :: cs)).2) := by
  have hread : (read · lineStart (crlf (c :: cs)))
      = fun rule => (read rule lineStart (c :: cs)).map fun (ts, t) => (ts, crlf t) :=
    funext fun rule => read_crlf hc hmark rule lineStart
  have hfirst : order.findSome? (read · lineStart (crlf (c :: cs)))
      = (order.findSome? (read · lineStart (c :: cs))).map fun (ts, t) => (ts, crlf t) := by
    rw [hread, List.map_findSome?]
    rfl
  rw [step, step, hfirst]
  cases order.findSome? (read · lineStart (c :: cs)) with
  | none =>
    rw [crlf_cons hc]
    rfl
  | some a => rfl

theorem endsLine_crlf (hv : v ≠ []) (t : List Char) :
    endsLine (crlf (v ++ t)) (crlf t) = endsLine (v ++ t) t := by
  have hlast : ∀ d : Char, ((crlf [d]).getLast? == some '\n') = (d == '\n') := by
    intro d
    by_cases hd : d = '\n'
    · subst hd
      rfl
    · rw [crlf_cons hd]
      rfl
  rcases List.eq_nil_or_concat v with rfl | ⟨u, d, rfl⟩
  · exact absurd rfl hv
  · rw [List.concat_eq_append, crlf_append, crlf_append, List.append_assoc, List.append_assoc,
      endsLine_append_of_ne_nil (crlf_ne_nil d []), hlast,
      endsLine_append_of_ne_nil (List.cons_ne_nil d [])]
    rfl

/-- A step that is the same whatever the ends of lines are. -/
theorem tokensFrom_crlf_of_step
    (hstep : step lineStart (crlf (c :: cs))
      = ((step lineStart (c :: cs)).1, crlf (step lineStart (c :: cs)).2))
    (hrest : ∀ b, tokensFrom b (crlf (step lineStart (c :: cs)).2)
      = tokensFrom b (step lineStart (c :: cs)).2) :
    tokensFrom lineStart (crlf (c :: cs)) = tokensFrom lineStart (c :: cs) := by
  obtain ⟨u, hu⟩ := step_suffix lineStart (c :: cs)
  have hline : endsLine (crlf (c :: cs)) (crlf (step lineStart (c :: cs)).2)
      = endsLine (c :: cs) (step lineStart (c :: cs)).2 := by
    have happend := endsLine_crlf (List.cons_ne_nil c u) (step lineStart (c :: cs)).2
    rwa [List.cons_append, hu] at happend
  rw [tokensFrom_of_ne_nil (crlf_ne_nil c cs), tokensFrom_of_ne_nil (List.cons_ne_nil c cs),
    hstep, hline, hrest]

/-- A newline that begins no comment is dropped, and the carriage return before it too. -/
theorem tokensFrom_crlf_newline (hnone : lineComment? lineStart ('\n' :: cs) = none) :
    tokensFrom lineStart (crlf ('\n' :: cs)) = tokensFrom true (crlf cs) := by
  have hreturn : lineComment? lineStart ('\r' :: '\n' :: crlf cs) = none := by
    rw [← crlf_newline, lineComment?_crlf, hnone]
    rfl
  rw [crlf_newline, tokensFrom_cons_blank rfl hreturn]
  exact tokensFrom_cons_blank rfl rfl

theorem tokensFrom_crlf (hmark : ¬ "#!".toList <:+: cs) (lineStart : Bool) :
    tokensFrom lineStart (crlf cs) = tokensFrom lineStart cs := by
  induction hn : cs.length using Nat.strong_induction_on generalizing cs lineStart with
  | h n ih =>
    subst hn
    have htail : ∀ t, t.length < cs.length → t <:+ cs → ∀ b,
        tokensFrom b (crlf t) = tokensFrom b t := by
      intro t hlt hsuffix b
      exact ih t.length hlt (fun h => hmark (h.trans hsuffix.isInfix)) b rfl
    cases cs with
    | nil => rfl
    | cons c cs =>
      have hsuffix := (step_suffix lineStart (c :: cs)).trans (List.tail_suffix _)
      have hrest := htail _ (length_lt_of_suffix_tail (List.cons_ne_nil c cs)
        (step_suffix lineStart (c :: cs))) hsuffix
      by_cases hc : c = '\n'
      · subst hc
        cases h : lineComment? lineStart ('\n' :: cs) with
        | some a =>
          have hcrlf := lineComment?_crlf lineStart ('\n' :: cs)
          rw [h] at hcrlf
          refine tokensFrom_crlf_of_step ?_ hrest
          rw [step_of_lineComment? hcrlf, step_of_lineComment? h]
        | none =>
          rw [tokensFrom_crlf_newline h, tokensFrom_cons_blank rfl h]
          exact htail cs (Nat.lt_succ_self _) (List.suffix_cons _ cs) true
      · exact tokensFrom_crlf_of_step (step_crlf hc (fun h => hmark h.isInfix) lineStart) hrest

end Direct

namespace Source

open Direct

/-- The tokens of a source without a `#!` do not depend on the ends of its lines. -/
theorem tokens_crlf (text : String) (h : ¬ "#!".toList <:+: text.toList) :
    tokens (.ofList (crlf text.toList)) = tokens text := by
  rw [tokens_eq_tokensFrom, tokens_eq_tokensFrom, String.toList_ofList]
  exact tokensFrom_crlf h true

/-- A comment, a string that goes on over the end of a line, and a tag on two lines. -/
theorem tokens_crlf_tag :
    ¬ "#!".toList <:+: "# a\n'b\n' <i\nc=d>".toList ∧
      tokens "# a\r\n'b\r\n' <i\r\nc=d>" = tokens "# a\n'b\n' <i\nc=d>" := by
  have hmark : ¬ "#!".toList <:+: "# a\n'b\n' <i\nc=d>".toList := by
    intro h
    have hmem : '!' ∈ "# a\n'b\n' <i\nc=d>".toList := h.subset (by decide)
    exact absurd hmem (by decide)
  have htext : crlf "# a\n'b\n' <i\nc=d>".toList = "# a\r\n'b\r\n' <i\r\nc=d>".toList := by decide
  have hsame := tokens_crlf "# a\n'b\n' <i\nc=d>" hmark
  rw [htext, String.ofList_toList] at hsame
  exact ⟨hmark, hsame⟩

end Source

end SourceTokens

/-
# `SourceTokens.Proofs.Agreement` — the program follows the grammar

The program matches expressions at a cursor; the account character by character
looks at what is ahead.  Rule by rule, and step by step inside a tag, the two read
the same tokens and leave the same text:

    rule.apply s = (Direct.read rule s.atLineStart s.rest).map
      fun (ts, t) => (ts, s.upTo t)

What a cursor makes of an expression is taken from `SourceTokens.Proofs.Cursor`, what
the expression leaves from `SourceTokens.Proofs.Lexicon`.
-/
import SourceTokens.Proofs.Cursor
import SourceTokens.Proofs.Lexicon
import SourceTokens.Source

namespace SourceTokens

open Direct

/-! ## Quotes -/

theorem matchRest?_char (c : Char) (cs : List Char) :
    (Regex.char c).matchRest? cs = if cs.head? = some c then some cs.tail else none := by
  cases cs with
  | nil => rfl
  | cons d cs =>
    rw [Regex.matchRest?, Regex.first_char_cons, List.head?_cons, List.tail_cons]
    simp only [Option.some.injEq]

theorem peek_one_eq_iff (s : Scanner) (c : Char) :
    s.peek 1 = [c] ↔ s.rest.head? = some c := by
  rw [Scanner.peek]
  cases s.rest with
  | nil => simp
  | cons d cs => simp

namespace Tag

theorem passQuoted_eq (quote : Char) (s : Scanner) :
    passQuoted quote s = s.upTo (afterQuoted quote s.rest) := by
  rw [passQuoted, Scanner.passChar_eq, Scanner.passUntil_eq, Lexicon.findRest?_stringEnd,
    afterQuoted_eq]
  simp only [peek_one_eq_iff]
  split <;> rfl

theorem passValue_eq (s : Scanner) : passValue s = s.upTo (afterValue s.rest) := by
  rw [passValue, Scanner.scan_eq rfl, Scanner.scan_eq rfl, matchRest?_char, matchRest?_char]
  cases hs : s.rest with
  | nil =>
    show s.passUntil Lexicon.identifier = _
    rw [Scanner.passUntil_eq, Lexicon.findRest?_identifier, hs]
    rfl
  | cons c cs =>
    have hquoted : ∀ q, passQuoted q (s.upTo cs) = s.upTo (afterQuoted q cs) := by
      intro q
      rw [passQuoted_eq, Scanner.rest_upTo,
        Scanner.upTo_upTo (hs ▸ List.suffix_cons c cs) (afterQuoted_suffix q cs)]
    rw [afterValue, List.head?_cons]
    by_cases hd : c = '"'
    · subst hd
      exact hquoted '"'
    by_cases hq : c = '\''
    · subst hq
      exact hquoted '\''
    · rw [if_neg (by simpa using hd), if_neg (by simpa using hq),
        if_neg fun h => h.elim hd hq]
      show s.passUntil Lexicon.identifier = _
      rw [Scanner.passUntil_eq, Lexicon.findRest?_identifier, hs, afterWord]
      split <;> rfl

theorem step_eq (s : Scanner) :
    step s = ((tagStep s.rest).1, s.upTo (tagStep s.rest).2) := by
  have hword := List.takeWhile_append_dropWhile (p := isWord) (l := s.rest)
  rw [step, tagStep, Scanner.scan_eq rfl, Scanner.scan_eq rfl, Scanner.scan_eq rfl,
    Lexicon.matchRest?_tagOpening, Lexicon.matchRest?_assignment,
    Lexicon.matchRest?_identifier]
  by_cases htag : s.rest.head? = some '<' ∧ s.rest.tail.takeWhile isTagName ≠ []
  · have hbefore : s.before (s.rest.tail.dropWhile isTagName)
        = '<' :: s.rest.tail.takeWhile isTagName := by
      refine Scanner.before_of_eq ?_
      obtain ⟨t, ht⟩ := List.head?_eq_some_iff.mp htag.1
      rw [ht, List.tail_cons, List.cons_append, List.takeWhile_append_dropWhile]
    rw [if_pos htag, if_pos htag]
    show (some (Token.tag (.ofList (s.before _))), _) = _
    rw [hbefore]
  rw [if_neg htag, if_neg htag]
  by_cases hnil : s.rest.takeWhile isWord = []
  · rw [if_neg fun h => h.1 hnil, if_pos hnil, if_pos hnil]
    show (none, s.passChar) = _
    rw [Scanner.passChar_eq, List.drop_one]
  rw [if_neg hnil, if_neg hnil]
  by_cases heq : (s.rest.dropWhile isWord).head? = some '='
  · obtain ⟨t, ht⟩ := List.head?_eq_some_iff.mp heq
    have hbefore : s.before t = s.rest.takeWhile isWord ++ ['='] := by
      refine Scanner.before_of_eq ?_
      rw [List.append_assoc]
      exact (hword.symm.trans (congrArg (_ ++ ·) ht))
    have hsuffix : t <:+ s.rest :=
      (List.suffix_cons '=' t).trans (ht ▸ List.dropWhile_suffix _)
    rw [if_pos ⟨hnil, heq⟩, if_pos heq, ht]
    show (some (Token.assignment (.ofList (s.before t))), passValue (s.upTo t)) = _
    rw [hbefore, passValue_eq, Scanner.rest_upTo,
      Scanner.upTo_upTo hsuffix (afterValue_suffix t)]
    rfl
  · rw [if_neg fun h => heq h.2, if_neg heq]
    show (some (Token.identifier (.ofList (s.before _))), _) = _
    rw [Scanner.before_of_eq hword.symm]

theorem toList_collect (s : Scanner) (found : Array Token) :
    (collect s found).toList = found.toList ++ tagTokens s.rest := by
  fun_induction collect s found with
  | case1 s found hs => rw [hs, tagTokens]; simp
  | case2 s found hs _ ih =>
    rw [ih, step_eq, Scanner.rest_upTo]
    conv => rhs; rw [tagTokens, dif_neg hs]
    cases (tagStep s.rest).1 with
    | none => rfl
    | some t => simp

theorem tokens_eq (span : List Char) : tokens span = tagTokens span := by
  rw [tokens, toList_collect]
  rfl

end Tag

/-! ## The rules -/

namespace Rule

theorem passString_eq (quote : Char) (s : Scanner) :
    passString quote s = s.upTo (afterString quote s.rest) := by
  rw [passString, Scanner.passChar_eq, Scanner.passUntilOrEnd_eq,
    Lexicon.findRest?_stringEnd, afterString_eq]
  simp only [peek_one_eq_iff]
  split <;> rfl

theorem passBlock_eq {b : String × String} (hb : b ∈ brackets) (s : Scanner) :
    passBlock b.1.toList s = s.upTo ((after? b.2.toList s.rest).getD []) := by
  have hlookup : ∀ b ∈ brackets, Lexicon.blockBrackets.lookup b.1 = some b.2 := by
    decide
  have hclosing : Lexicon.blockClosing? (.ofList b.1.toList) = some (Regex.text b.2) := by
    rw [String.ofList_toList, Lexicon.blockClosing?, hlookup b hb]
    rfl
  rw [passBlock, hclosing]
  show s.passUntilOrEnd (Regex.text b.2) = _
  rw [Scanner.passUntilOrEnd_eq, Lexicon.findRest?_text]

theorem afterLine_append {w : List Char} (hw : '\n' ∉ w) (cs : List Char) :
    afterLine (w ++ cs) = afterLine cs := by
  rw [afterLine, List.dropWhile_append_of_pos, afterLine]
  intro c hc
  simpa using fun h : c = '\n' => hw (h ▸ hc)

variable (s : Scanner)

theorem apply_interpreterLine :
    interpreterLine.apply s
      = (interpreterLine? s.rest).map fun (ts, t) => (ts, s.upTo t) := by
  have hline := List.takeWhile_append_dropWhile (p := (· ≠ '\n')) (l := s.rest)
  show (s.scan Lexicon.interpreterLine).bind _ = _
  rw [Scanner.scan_eq rfl, Lexicon.matchRest?_interpreterLine, interpreterLine?]
  split
  · show some (_, _) = some (_, _)
    rw [Scanner.before_of_eq hline.symm]
  · rfl

/-- A comment to the end of the line, whatever says that a line starts. -/
theorem scan_lineComment (lineStart : Bool) :
    (Option.bind (guard lineStart) fun _ => (s.scan Lexicon.lineComment).bind fun (_, s) =>
        some (([] : List Token), s.passUntil Lexicon.lineEnd))
      = (lineComment? lineStart s.rest).map fun (ts, t) => (ts, s.upTo t) := by
  have hmarks : ∀ w ∈ lineMarks, '\n' ∉ w.toList := by decide
  rw [Scanner.scan_eq rfl, Lexicon.matchRest?_lineComment, lineComment?, findSome?_ite]
  cases lineStart with
  | false => rfl
  | true =>
    cases hfind : lineMarks.find? fun w => w.toList <+: s.rest.dropWhile isBlank with
    | none =>
      rw [if_neg]
      · rfl
      · rintro ⟨_, w, hw, hp⟩
        exact absurd (decide_eq_true hp) (List.find?_eq_none.mp hfind w hw)
    | some w =>
      obtain ⟨hw, hp⟩ := of_find?_eq_some hfind
      rw [if_pos ⟨rfl, w, hw, hp⟩]
      obtain ⟨t, ht⟩ := hp
      have hsuffix : t <:+ s.rest :=
        (List.suffix_append w.toList t).trans (ht ▸ List.dropWhile_suffix _)
      rw [← ht, afterLine_append (hmarks w hw)]
      show some ([], (s.upTo ((w.toList ++ t).drop w.toList.length)).passUntil _) = _
      rw [List.drop_left, Scanner.passUntil_eq, Lexicon.findRest?_lineEnd,
        Scanner.rest_upTo]
      exact congrArg (fun u => some ([], u))
        (Scanner.upTo_upTo hsuffix (afterLine_suffix t))

theorem apply_lineComment :
    lineComment.apply s
      = (lineComment? s.atLineStart s.rest).map fun (ts, t) => (ts, s.upTo t) :=
  scan_lineComment s s.atLineStart

theorem apply_blockComment :
    blockComment.apply s = (blockComment? s.rest).map fun (ts, t) => (ts, s.upTo t) := by
  show (s.scan Lexicon.blockOpening).bind _ = _
  rw [Scanner.scan_eq rfl, Lexicon.matchRest?_blockOpening, blockComment?, findSome?_ite,
    findSome?_ite]
  cases hfind : brackets.find? fun b => b.1.toList <+: s.rest with
  | none => rfl
  | some b =>
    obtain ⟨hb, t, ht⟩ := of_find?_eq_some hfind
    have hsuffix : t <:+ s.rest := ht ▸ List.suffix_append _ t
    have hrest : (after? b.2.toList t).getD [] <:+ t :=
      getD_suffix (fun _ => suffix_of_after?) List.nil_suffix
    show some ([], passBlock (s.before (s.rest.drop _)) (s.upTo (s.rest.drop _)))
      = some ([], s.upTo ((after? _ (s.rest.drop _)).getD []))
    rw [← ht, List.drop_left, Scanner.before_of_eq ht.symm,
      passBlock_eq hb, Scanner.rest_upTo,
      Scanner.upTo_upTo hsuffix hrest]

theorem apply_string (quote : Char) :
    ((s.scan (.char quote)).bind fun (_, s) => some (([] : List Token), passString quote s))
      = (string? quote s.rest).map fun (ts, t) => (ts, s.upTo t) := by
  rw [Scanner.scan_eq rfl, matchRest?_char]
  cases hs : s.rest with
  | nil => rfl
  | cons c cs =>
    rw [List.head?_cons, List.tail_cons, string?]
    by_cases hc : c = quote
    · have hsuffix : cs <:+ s.rest := hs ▸ List.suffix_cons c cs
      rw [if_pos hc, if_pos (congrArg some hc)]
      show some ([], passString quote (s.upTo cs)) = some ([], s.upTo _)
      rw [passString_eq, Scanner.rest_upTo,
        Scanner.upTo_upTo hsuffix (afterString_suffix quote cs)]
    · rw [if_neg hc, if_neg fun h => hc (Option.some.inj h)]
      rfl

theorem apply_eq (rule : Rule) :
    rule.apply s
      = (Direct.read rule s.atLineStart s.rest).map fun (ts, t) => (ts, s.upTo t) := by
  cases rule with
  | interpreterLine => exact apply_interpreterLine s
  | lineComment => exact apply_lineComment s
  | blockComment => exact apply_blockComment s
  | doubleQuoted => exact apply_string s '"'
  | singleQuoted => exact apply_string s '\''
  | number =>
    show (s.scan Lexicon.number).bind _ = (number? s.rest).map _
    rw [Scanner.scan_eq rfl, Lexicon.matchRest?_number]
    cases h : number? s.rest with
    | none => rfl
    | some a =>
      rw [number_eq_nil h]
      rfl
  | tag =>
    show (s.scan Lexicon.tagSpan).bind _ = ((span? s.rest).map _).map _
    rw [Scanner.scan_eq rfl, Lexicon.matchRest?_tagSpan]
    cases h : span? s.rest with
    | none => rfl
    | some a =>
      obtain ⟨w, t⟩ := a
      obtain ⟨_, _, _, hrest, _⟩ := of_span? h
      show some (Tag.tokens (s.before t), s.upTo t) = _
      rw [Scanner.before_of_eq hrest, Tag.tokens_eq]
      rfl
  | punctuation =>
    show (s.scan Lexicon.punctuation).bind _ = (punctuation? s.rest).map _
    rw [Scanner.scan_eq rfl, Lexicon.matchRest?_punctuation]
    cases hs : s.rest with
    | nil => rfl
    | cons c cs =>
      rw [punctuation?]
      split
      · show some ([Token.punctuation (.ofList (s.before cs))], s.upTo cs) = _
        rw [Scanner.before_of_eq (w := [c]) hs]
        rfl
      · rfl
  | regular =>
    show (s.scan Lexicon.regular).bind _ = (regular? s.rest).map _
    rw [Scanner.scan_eq rfl, Lexicon.matchRest?_regular, regular?]
    split
    · rfl
    · show some ([Token.regular (.ofList (s.before _))], s.upTo _) = _
      rw [Scanner.before_of_eq (List.takeWhile_append_dropWhile (p := isRegular)).symm]
      rfl
  | operator =>
    show (s.scan Lexicon.operator).bind _ = (operator? s.rest).map _
    rw [Scanner.scan_eq rfl, Lexicon.matchRest?_operator, operator?, findSome?_ite]
    cases hfind : operators.find? fun w => w.toList <+: s.rest with
    | none => rfl
    | some w =>
      obtain ⟨_, t, ht⟩ := of_find?_eq_some hfind
      show some ([Token.operator (.ofList (s.before (s.rest.drop _)))],
          s.upTo (s.rest.drop _)) = some ([Token.operator w], s.upTo (s.rest.drop _))
      rw [← ht, List.drop_left, Scanner.before_of_eq ht.symm, String.ofList_toList]

end Rule

/-! ## A step of the loop -/

namespace Source

/-- The rule that a step follows, if one applies. -/
def fired? (s : Scanner) : Option Rule := Rule.all.find? fun rule => (rule.apply s).isSome

theorem fired?_eq (s : Scanner) : fired? s = taken? s.atLineStart s.rest := by
  have happly : ∀ rule : Rule,
      (rule.apply s).isSome = (Direct.read rule s.atLineStart s.rest).isSome := by
    intro rule
    rw [Rule.apply_eq, Option.isSome_map]
  show Rule.all.find? _ = Rule.all.find? _
  exact congrArg (List.find? · Rule.all) (funext happly)

/-- Rules that read what the grammar reads take the step that the grammar takes. -/
theorem step_of_reads {s : Scanner} {apply : Rule → Option (List Token × Scanner)}
    {lineStart : Bool}
    (h : ∀ rule, apply rule
      = (Direct.read rule lineStart s.rest).map fun (ts, t) => (ts, s.upTo t)) :
    (Rule.all.findSome? apply).getD ([], s.passChar)
      = ((Direct.step lineStart s.rest).1, s.upTo (Direct.step lineStart s.rest).2) := by
  have hfind : Rule.all.findSome? apply
      = (order.findSome? (Direct.read · lineStart s.rest)).map
        fun (ts, t) => (ts, s.upTo t) := by
    rw [List.map_findSome?]
    exact congrArg (List.findSome? · order) (funext h)
  rw [Direct.step, hfind]
  cases order.findSome? (Direct.read · lineStart s.rest) with
  | none => exact congrArg (([], ·)) (Scanner.passChar_eq s)
  | some a => rfl

theorem step_eq (s : Scanner) :
    step s = ((Direct.step s.atLineStart s.rest).1,
      s.upTo (Direct.step s.atLineStart s.rest).2) :=
  step_of_reads (Rule.apply_eq s)

end Source

end SourceTokens

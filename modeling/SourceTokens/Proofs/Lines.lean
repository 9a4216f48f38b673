/-
# `SourceTokens.Proofs.Lines` — tokens that are read again

The tokens of one file are printed each on a line of its own.  A bracket, a word or an
operator (`Token.Plain`) is read off such a line again, and as the same token, whatever
is printed after it: a newline ends it, and what is printed holds no space, so no comment
to the end of the line begins anywhere in it.  Other tokens are not: the name of an
attribute with its equals sign is a word and an equals sign that is dropped.

So the tokens of the printed lines are the tokens that were printed
(`tokensFrom_tokenLines`), and printing and reading once more changes nothing.
-/
import Mathlib.Data.List.Infix
import SourceTokens.Output
import SourceTokens.Proofs.Blank

namespace SourceTokens

open Direct

variable {rule : Rule} {lineStart : Bool} {cs r w x : List Char} {ts : List Token}

/-- Tokens that are read as what they are, wherever a newline follows. -/
inductive Token.Plain : Token → Prop
  | punctuation {c : Char} (hc : isPunctuation c) : Plain (.punctuation (.ofList [c]))
  | regular {w : List Char} (hw : TextClass.word.Contains w) : Plain (.regular (.ofList w))
  | operator {w : List Char} (hw : TextClass.operator.Contains w) :
      Plain (.operator (.ofList w))

/-- The kinds of texts that such tokens have. -/
def TextClass.plain : List TextClass := [.bracket, .operator, .word]

theorem Token.Plain.kind {token : Token} (h : token.Plain) :
    ∃ k ∈ TextClass.plain, k.Contains token.text.toList := by
  cases h with
  | @punctuation c hc => exact ⟨.bracket, by simp [TextClass.plain], c, hc, String.toList_ofList⟩
  | @regular w hw => exact ⟨.word, by simp [TextClass.plain], String.toList_ofList.symm ▸ hw⟩
  | @operator w hw => exact ⟨.operator, by simp [TextClass.plain], String.toList_ofList.symm ▸ hw⟩

theorem Token.Plain.space_not_mem {token : Token} (h : token.Plain) : ' ' ∉ token.text.toList := by
  obtain ⟨k, _, hk⟩ := h.kind
  intro hmem
  exact absurd (hk.not_isBlank ' ' hmem) (by decide)

theorem Token.Plain.exists_text {t : String} {k : TextClass} (hk : k ∈ TextClass.plain)
    (h : k.Contains t.toList) : ∃ token : Token, token.Plain ∧ token.text = t := by
  simp only [TextClass.plain, List.mem_cons, List.not_mem_nil, or_false] at hk
  rcases hk with rfl | rfl | rfl
  · obtain ⟨c, hc, ht⟩ := h
    exact ⟨_, .punctuation hc, by rw [Token.text, ← ht, String.ofList_toList]⟩
  · exact ⟨_, .operator h, String.ofList_toList⟩
  · exact ⟨_, .regular h, String.ofList_toList⟩

namespace Direct

/-! ## One line -/

/-- Without a space there is no mark of a comment to the end of the line. -/
theorem lineComment?_of_not_mem (h : ' ' ∉ cs) (lineStart : Bool) :
    lineComment? lineStart cs = none := by
  have hmarks : ∀ m ∈ lineMarks, ' ' ∈ m.toList := by decide
  refine if_neg ?_
  rintro ⟨_, m, hm, hfront⟩
  exact h ((List.dropWhile_suffix _).subset (hfront.subset (hmarks m hm)))

/-- A rule that does not apply to a line does not apply to it when more lines follow, but
for a comment or a tag, which may begin with blanks or go on over lines. -/
theorem read_append_newline_eq_none (hx : x ≠ []) (hcomment : rule ≠ .lineComment)
    (htag : rule ≠ .tag) (h : read rule lineStart x = none) (r : List Char) :
    read rule lineStart (x ++ '\n' :: r) = none := by
  have hstring : ∀ quote, string? quote x = none → string? quote (x ++ '\n' :: r) = none := by
    intro quote hnone
    obtain ⟨c, x, rfl⟩ := List.exists_cons_of_ne_nil hx
    rw [string?] at hnone
    split at hnone
    case isTrue => cases hnone
    case isFalse hc => exact if_neg hc
  cases rule with
  | lineComment => exact absurd rfl hcomment
  | tag => exact absurd rfl htag
  | blockComment =>
    have hopening : ∀ b ∈ brackets, '\n' ∉ b.1.toList := by decide
    refine blockComment?_eq_none_iff.mpr ?_
    intro b hb hfront
    exact blockComment?_eq_none_iff.mp h b hb
      ((prefix_append_cons_iff (hopening b hb) x r).mp hfront)
  | doubleQuoted => exact hstring '"' h
  | singleQuoted => exact hstring '\'' h
  | interpreterLine | number | punctuation | regular | operator =>
    rw [read_append_newline (by decide), h]
    rfl

/-- What a rule reads to the end of a line is read there when more lines follow, if the
rules before it refuse the line. -/
theorem step_append_newline {before after : List Rule}
    (horder : order = before ++ rule :: after) (hrule : rule ∈ inLine) (hx : x ≠ [])
    (hread : read rule lineStart x = some (ts, []))
    (hbefore : ∀ r ∈ before, r ≠ .lineComment → r ≠ .tag → read r false x = none)
    (hcomment : lineComment? lineStart (x ++ '\n' :: r) = none)
    (hspan : span? (x ++ '\n' :: r) = none) :
    step lineStart (x ++ '\n' :: r) = (ts, '\n' :: r) := by
  refine step_of_read horder ?_ ?_
  · rw [read_append_newline hrule, hread]
    rfl
  · intro r' hr'
    by_cases hline : r' = .lineComment
    · subst hline
      exact hcomment
    by_cases htag : r' = .tag
    · subst htag
      exact congrArg (Option.map _) hspan
    refine read_append_newline_eq_none hx hline htag ?_ r
    rw [read_congr hline lineStart false]
    exact hbefore r' hr' hline htag

theorem punctuation?_of_isRegular (h : ∀ c ∈ cs, isRegular c) : punctuation? cs = none := by
  have hbrackets : [';', '\x7b', '\x7d', '(', ')', '[', ']'].all (!isRegular ·) = true := by
    decide
  cases cs with
  | nil => rfl
  | cons c cs =>
    refine if_neg ?_
    intro hc
    have hother := List.all_eq_true.mp hbrackets c (of_decide_eq_true hc)
    rw [h c List.mem_cons_self] at hother
    cases hother

theorem step_bracket {c : Char} (hc : isPunctuation c = true)
    (hcomment : lineComment? lineStart ([c] ++ '\n' :: r) = none) :
    step lineStart ([c] ++ '\n' :: r) = ([.punctuation (.ofList [c])], '\n' :: r) := by
  have htable : [';', '\x7b', '\x7d', '(', ')', '[', ']'].all (fun c =>
      c ≠ '<' ∧ ∀ r ∈ order.take 7, r ≠ .lineComment → r ≠ .tag → read r false [c] = none) := by
    decide
  obtain ⟨hopen, hbefore⟩ :=
    of_decide_eq_true (List.all_eq_true.mp htable c (of_decide_eq_true hc))
  exact step_append_newline (show order = order.take 7 ++ .punctuation :: _ from rfl)
    (by decide) (List.cons_ne_nil c []) (if_pos hc) hbefore hcomment (span?_cons_of_ne hopen _)

theorem step_operator (hw : TextClass.operator.Contains w)
    (hcomment : lineComment? lineStart (w ++ '\n' :: r) = none) :
    step lineStart (w ++ '\n' :: r) = ([.operator (.ofList w)], '\n' :: r) := by
  have htable : ∀ w ∈ operatorTexts, w ≠ [] ∧
      operator? w = some ([.operator (.ofList w)], []) ∧
      (w = ['<'] ∨ w = ['<', '<'] ∨ w.head? ≠ some '<') ∧
      ∀ r ∈ order.take 9, r ≠ .lineComment → r ≠ .tag → read r false w = none := by
    decide
  obtain ⟨hne, hread, hopen, hbefore⟩ := htable w hw
  have hspan : span? (w ++ '\n' :: r) = none := by
    rcases hopen with rfl | rfl | hhead
    · rfl
    · rfl
    · exact span?_of_head?_ne (by rwa [head?_append_of_ne_nil hne])
  exact step_append_newline (show order = order.take 9 ++ .operator :: _ from rfl)
    (by decide) hne hread hbefore hcomment hspan

theorem step_word (hw : TextClass.word.Contains w)
    (hcomment : lineComment? lineStart (w ++ '\n' :: r) = none) :
    step lineStart (w ++ '\n' :: r) = ([.regular (.ofList w)], '\n' :: r) := by
  have hhead : ∀ c, isRegular c = false → w.head? ≠ some c :=
    fun c hc h => TextClass.not_mem_of_word hw hc (List.mem_of_head? h)
  have ⟨hne, hregular, hdigit, hopening⟩ := hw
  have hread : regular? w = some ([.regular (.ofList w)], []) := by
    rw [regular?, List.takeWhile_eq_self_iff.mpr hregular, if_neg hne,
      List.dropWhile_eq_nil_iff.mpr hregular]
  have hblock : blockComment? w = none := by
    have htable : ∀ b ∈ brackets, b.1 = "/*" ∨ b.1.toList.any (!isRegular ·) = true := by
      decide
    refine blockComment?_eq_none_iff.mpr ?_
    intro b hb hfront
    rcases htable b hb with h | h
    · rw [h] at hfront
      exact hopening hfront
    · obtain ⟨c, hc, hother⟩ := List.any_eq_true.mp h
      exact TextClass.not_mem_of_word hw (by simpa using hother) (hfront.subset hc)
  have hspan : span? (w ++ '\n' :: r) = none := by
    refine span?_of_head?_ne ?_
    rw [head?_append_of_ne_nil hne]
    exact hhead '<' rfl
  refine step_append_newline (show order = order.take 8 ++ .regular :: _ from rfl)
    (by decide) hne hread ?_ hcomment hspan
  intro r hr hline htag
  -- the rules before that of words begin with a character that no word has, but for a
  -- digit and the `/*` of a comment
  cases r with
  | interpreterLine =>
    refine interpreterLine?_eq_none ?_
    intro h
    exact TextClass.not_mem_of_word hw (c := '!') rfl (h.subset (by decide))
  | lineComment => exact absurd rfl hline
  | blockComment => exact hblock
  | doubleQuoted => exact string?_of_head?_ne (hhead '"' rfl)
  | singleQuoted => exact string?_of_head?_ne (hhead '\'' rfl)
  | number => exact number?_eq_none_iff.mpr hdigit
  | tag => exact absurd rfl htag
  | punctuation => exact punctuation?_of_isRegular hregular
  | regular | operator => exact absurd hr (by decide)

/-- A plain token is read off its line, and reading goes on with the next line. -/
theorem tokensFrom_plain {token : Token} (htoken : token.Plain) (hr : ' ' ∉ r)
    (lineStart : Bool) :
    tokensFrom lineStart (token.text.toList ++ '\n' :: r) = token :: tokensFrom true r := by
  have hspace : ' ' ∉ token.text.toList ++ '\n' :: r := by
    rw [List.mem_append, List.mem_cons]
    rintro (hmem | hmem | hmem)
    · exact htoken.space_not_mem hmem
    · exact absurd hmem (by decide)
    · exact hr hmem
  have hcomment := lineComment?_of_not_mem hspace lineStart
  have hstep : step lineStart (token.text.toList ++ '\n' :: r) = ([token], '\n' :: r) := by
    cases htoken with
    | punctuation hc =>
      rw [Token.text, String.toList_ofList] at hcomment ⊢
      exact step_bracket hc hcomment
    | regular hw =>
      rw [Token.text, String.toList_ofList] at hcomment ⊢
      exact step_word hw hcomment
    | operator hw =>
      rw [Token.text, String.toList_ofList] at hcomment ⊢
      exact step_operator hw hcomment
  have hnewline : ∀ b, lineComment? b ('\n' :: r) = none :=
    lineComment?_of_not_mem fun hmem => hspace (List.mem_append_right _ hmem)
  rw [tokensFrom_of_ne_nil (List.append_ne_nil_of_right_ne_nil _ (List.cons_ne_nil _ _)), hstep,
    tokensFrom_cons_blank rfl (hnewline _)]
  rfl

/-! ## All lines -/

theorem toList_tokenLines_cons (t : String) (ts : List String) :
    (Output.tokenLines (t :: ts)).toList
      = t.toList ++ '\n' :: (Output.tokenLines ts).toList := by
  rw [Output.tokenLines, List.map_cons, String.join_cons, String.toList_append,
    String.toList_append, List.append_assoc]
  rfl

theorem space_not_mem_tokenLines {ts : List String} (h : ∀ t ∈ ts, ' ' ∉ t.toList) :
    ' ' ∉ (Output.tokenLines ts).toList := by
  induction ts with
  | nil => exact List.not_mem_nil
  | cons t ts ih =>
    obtain ⟨ht, hts⟩ := List.forall_mem_cons.mp h
    rw [toList_tokenLines_cons, List.mem_append, List.mem_cons]
    rintro (hmem | hmem | hmem)
    · exact ht hmem
    · exact absurd hmem (by decide)
    · exact ih hts hmem

/-- The printed lines of plain tokens are read as these tokens. -/
theorem tokensFrom_tokenLines {tokens : List Token} (h : ∀ token ∈ tokens, token.Plain)
    (lineStart : Bool) :
    tokensFrom lineStart (Output.tokenLines (tokens.map Token.text)).toList = tokens := by
  induction tokens generalizing lineStart with
  | nil => exact tokensFrom_nil lineStart
  | cons token tokens ih =>
    obtain ⟨htoken, htokens⟩ := List.forall_mem_cons.mp h
    have hspace : ' ' ∉ (Output.tokenLines (tokens.map Token.text)).toList :=
      space_not_mem_tokenLines (List.forall_mem_map.mpr fun t ht => (htokens t ht).space_not_mem)
    rw [List.map_cons, toList_tokenLines_cons, tokensFrom_plain htoken hspace,
      ih htokens]

end Direct

/-! ## Printing and reading again -/

/-- Texts of plain kinds are the texts of plain tokens. -/
theorem exists_plain_tokens {ts : List String}
    (h : ∀ t ∈ ts, ∃ k ∈ TextClass.plain, k.Contains t.toList) :
    ∃ tokens : List Token, (∀ token ∈ tokens, token.Plain) ∧ tokens.map Token.text = ts := by
  induction ts with
  | nil => exact ⟨[], nofun, rfl⟩
  | cons t ts ih =>
    obtain ⟨⟨k, hk, ht⟩, hts⟩ := List.forall_mem_cons.mp h
    obtain ⟨token, htoken, rfl⟩ := Token.Plain.exists_text hk ht
    obtain ⟨tokens, htokens, rfl⟩ := ih hts
    exact ⟨token :: tokens, List.forall_mem_cons.mpr ⟨htoken, htokens⟩, rfl⟩

/-- What the last three rules make of a text is plain. -/
theorem Direct.plain_of_yields (htaken : taken? lineStart (w ++ r) = some rule)
    (h : Yields rule w ts) (hrule : rule ∈ [Rule.punctuation, .regular, .operator])
    {token : Token} (htoken : token ∈ ts) : token.Plain := by
  cases h with
  | nothing => cases htoken
  | interpreter => exact absurd hrule (by decide)
  | tag => exact absurd hrule (by decide)
  | punctuation hc =>
    obtain rfl := List.mem_singleton.mp htoken
    exact .punctuation hc
  | regular hne hw =>
    obtain rfl := List.mem_singleton.mp htoken
    exact .regular (word_of_taken? htaken hne hw)
  | @operator o ho =>
    obtain rfl := List.mem_singleton.mp htoken
    have hplain := Token.Plain.operator (operator_of_taken? htaken ho)
    rwa [String.ofList_toList] at hplain

namespace Source

theorem plain_of_emits {text : String} {token : Token} (h : Emits text rule token)
    (hrule : rule ∈ [Rule.punctuation, .regular, .operator]) : token.Plain := by
  obtain ⟨s, _, _, hfired, htoken⟩ := h
  rw [fired?_eq] at hfired
  rw [step_eq] at htoken
  obtain ⟨w, hw, hyields⟩ := yields_of_read (read_of_taken? hfired)
  rw [hw] at hfired
  exact plain_of_yields hfired hyields hrule htoken

theorem render_lines_singleton (file : String) (ts : List String) :
    Output.render .lines [⟨file, ts⟩] = Output.tokenLines ts := by
  show String.join [(if 1 < 1 then _ else "") ++ Output.tokenLines ts] = _
  rw [if_neg (Nat.lt_irrefl 1), String.join_cons, String.join_nil, String.append_empty,
    String.empty_append]

/-- Plain texts, each printed on a line of its own, are the texts of the tokens of what
is printed.  So where only brackets, words and operators are found, the tokens are found
again in their own print. -/
theorem tokens_render_lines (file : String) :
    (∀ ts : List String, (∀ t ∈ ts, ∃ k ∈ TextClass.plain, k.Contains t.toList) →
      Output.render .lines [⟨file, ts⟩] = String.join (ts.map (· ++ "\n")) ∧
      (tokens (Output.render .lines [⟨file, ts⟩])).map Token.text = ts) ∧
    ∀ source : String,
      (∀ rule token, Emits source rule token →
        rule ∈ [Rule.punctuation, .regular, .operator]) →
      tokens (Output.render .lines [⟨file, (tokens source).map Token.text⟩])
        = tokens source := by
  have hplain : ∀ tokens : List Token, (∀ token ∈ tokens, token.Plain) →
      Source.tokens (Output.render .lines [⟨file, tokens.map Token.text⟩]) = tokens := by
    intro tokens htokens
    rw [render_lines_singleton, tokens_eq_tokensFrom]
    exact tokensFrom_tokenLines htokens true
  constructor
  · intro ts hts
    obtain ⟨tokens, htokens, rfl⟩ := exists_plain_tokens hts
    exact ⟨render_lines_singleton file _, congrArg (List.map Token.text) (hplain tokens htokens)⟩
  · intro source hsource
    refine hplain _ ?_
    intro token htoken
    obtain ⟨rule, hemits⟩ := (mem_tokens_iff source token).mp htoken
    exact plain_of_emits hemits (hsource rule token hemits)

theorem tokens_render_lines_shift :
    ((∀ t ∈ ["f", "(", "<<"], ∃ k ∈ TextClass.plain, k.Contains t.toList) ∧
      (tokens (Output.render .lines [⟨"a", ["f", "(", "<<"]⟩])).map Token.text
        = ["f", "(", "<<"]) ∧
    (∀ rule token, Emits "f(a) << b;" rule token →
      rule ∈ [Rule.punctuation, .regular, .operator]) ∧
    tokens (Output.render .lines [⟨"a", (tokens "f(a) << b;").map Token.text⟩])
      = tokens "f(a) << b;" := by
  have hkinds : ∀ t ∈ ["f", "(", "<<"], ∃ k ∈ TextClass.plain, k.Contains t.toList := by
    refine List.forall_mem_cons.mpr ⟨⟨.word, by simp [TextClass.plain], ?_⟩, ?_⟩
    · exact ⟨by decide, List.all_eq_true.mp (by decide), by decide, by decide⟩
    refine List.forall_mem_cons.mpr ⟨⟨.bracket, by simp [TextClass.plain], ?_⟩, ?_⟩
    · exact ⟨'(', by decide, by decide⟩
    refine List.forall_mem_singleton.mpr ⟨.operator, by simp [TextClass.plain], ?_⟩
    show "<<".toList ∈ operatorTexts
    decide
  have hrules : ∀ rule token, Emits "f(a) << b;" rule token →
      rule ∈ [Rule.punctuation, .regular, .operator] := by
    have hends : ∀ t ∈ "f(a) << b;".toList.tails, ∀ lineStart, ∀ rule ∈ taken? lineStart t,
        rule ∈ [Rule.punctuation, .regular, .operator] := by
      decide +kernel
    rintro rule token ⟨s, hvisits, _, hfired, _⟩
    rw [fired?_eq] at hfired
    exact hends s.rest ((List.mem_tails _ _).mpr (rest_of_visits hvisits)) _ rule hfired
  exact ⟨⟨hkinds, ((tokens_render_lines "a").1 _ hkinds).2⟩, hrules,
    (tokens_render_lines "a").2 _ hrules⟩

end Source

end SourceTokens

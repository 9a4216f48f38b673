/-
# `SourceTokens.Proofs.Yield` — what a step of the grammar yields

The converse of reading: from what a case has read, and the tokens it yields, back to
the shape of the text.  `TagStep` has one constructor for each thing a step inside a tag
can do, and `Yields` one for each kind of tokens that a rule makes of the text it reads.
What holds of all tokens is shown by cases on these two.
-/
import SourceTokens.Proofs.Direct

namespace SourceTokens.Direct

/-- A step inside a tag: what is read, the token it gives, if any, and what is left. -/
inductive TagStep : List Char → Option Token → List Char → Prop
  | name {name rest : List Char} (hne : name ≠ []) (hname : ∀ c ∈ name, isTagName c) :
      TagStep ('<' :: name ++ rest) (some (.tag (.ofList ('<' :: name)))) rest
  | skip {cs rest : List Char} (h : rest <:+ cs) : TagStep cs none rest
  | assignment {word cs rest : List Char} (hne : word ≠ []) (hword : ∀ c ∈ word, isWord c)
      (h : rest <:+ cs) :
      TagStep (word ++ ['='] ++ cs) (some (.assignment (.ofList (word ++ ['='])))) rest
  | identifier {word rest : List Char} (hne : word ≠ []) (hword : ∀ c ∈ word, isWord c) :
      TagStep (word ++ rest) (some (.identifier (.ofList word))) rest

/-- What a rule makes of the text it reads. -/
inductive Yields : Rule → List Char → List Token → Prop
  | nothing (rule : Rule) (w : List Char) : Yields rule w []
  | interpreter {w : List Char} {n : String} (hmark : "#!".toList <+: w) (hw : '\n' ∉ w)
      (hn : Interpreter.ofLine? w = some n) : Yields .interpreterLine w [.interpreter n]
  | tag {c : Char} {m : List Char} (hblank : isBlank c = false) (hangle : isAngle c = false)
      (hm : ∀ d ∈ m, isAngle d = false) :
      Yields .tag ('<' :: c :: (m ++ ['>'])) (tagTokens ('<' :: c :: (m ++ ['>'])))
  | punctuation {c : Char} (hc : isPunctuation c) :
      Yields .punctuation [c] [.punctuation (.ofList [c])]
  | regular {w : List Char} (hne : w ≠ []) (hw : ∀ c ∈ w, isRegular c) :
      Yields .regular w [.regular (.ofList w)]
  | operator {w : String} (hw : w ∈ operators) : Yields .operator w.toList [.operator w]

theorem tagStep_spec (cs : List Char) : TagStep cs (tagStep cs).1 (tagStep cs).2 := by
  have hword := List.takeWhile_append_dropWhile (p := isWord) (l := cs)
  have hmem : ∀ c ∈ cs.takeWhile isWord, isWord c = true := by
    intro c hc
    exact of_mem_takeWhile hc
  by_cases htag : cs.head? = some '<' ∧ cs.tail.takeWhile isTagName ≠ []
  · obtain ⟨t, rfl⟩ := List.head?_eq_some_iff.mp htag.1
    have hname := List.takeWhile_append_dropWhile (p := isTagName) (l := t)
    rw [tagStep, if_pos htag]
    conv => arg 1; rw [← hname]
    exact .name htag.2 fun _ => of_mem_takeWhile
  by_cases hnil : cs.takeWhile isWord = []
  · rw [tagStep, if_neg htag, if_pos hnil]
    exact .skip (List.drop_suffix 1 cs)
  by_cases heq : (cs.dropWhile isWord).head? = some '='
  · obtain ⟨t, ht⟩ := List.head?_eq_some_iff.mp heq
    rw [tagStep, if_neg htag, if_neg hnil, if_pos heq, ht]
    have hcs : cs.takeWhile isWord ++ ['='] ++ t = cs := by
      rw [List.append_assoc, List.singleton_append, ← ht, hword]
    conv => arg 1; rw [← hcs]
    exact .assignment hnil hmem (afterValue_suffix t)
  · rw [tagStep, if_neg htag, if_neg hnil, if_neg heq]
    conv => arg 1; rw [← hword]
    exact .identifier hnil hmem

/-- A token of a tag is that of a step somewhere in it. -/
theorem exists_tagStep_of_mem {cs : List Char} {token : Token} (h : token ∈ tagTokens cs) :
    ∃ s t, s <:+ cs ∧ TagStep s (some token) t := by
  fun_induction tagTokens cs with
  | case1 => cases h
  | case2 cs _ _ ih =>
    rcases List.mem_append.mp h with hstep | hlater
    · have htoken : (tagStep cs).1 = some token := Option.mem_toList.mp hstep
      exact ⟨cs, _, List.suffix_refl cs, htoken ▸ tagStep_spec cs⟩
    · obtain ⟨s, t, hs, hspec⟩ := ih hlater
      exact ⟨s, t, hs.trans ((tagStep_suffix cs).trans (List.tail_suffix cs)), hspec⟩

section

variable {rule : Rule} {lineStart : Bool} {cs t : List Char} {ts : List Token}

theorem yields_nothing (h : t <:+ cs) : ∃ w, cs = w ++ t ∧ Yields rule w [] := by
  obtain ⟨w, rfl⟩ := h
  exact ⟨w, rfl, .nothing rule w⟩

/-- What a case reads and what it leaves are the text, and what it yields is what its
rule makes of the one. -/
theorem yields_of_read (h : read rule lineStart cs = some (ts, t)) :
    ∃ w, cs = w ++ t ∧ Yields rule w ts := by
  have hsuffix := (read_suffix h).trans (List.tail_suffix cs)
  cases rule with
  | interpreterLine =>
    obtain ⟨hmark, h⟩ := Option.ite_none_right_eq_some.mp h
    cases h
    refine ⟨cs.takeWhile (· ≠ '\n'), List.takeWhile_append_dropWhile.symm, ?_⟩
    cases hn : Interpreter.ofLine? (cs.takeWhile (· ≠ '\n')) with
    | none => exact .nothing _ _
    | some n =>
      exact .interpreter hmark.1 (fun hmem => by simpa using of_mem_takeWhile hmem) hn
  | lineComment =>
    obtain ⟨_, h⟩ := Option.ite_none_right_eq_some.mp h
    cases h
    exact yields_nothing hsuffix
  | blockComment =>
    obtain ⟨b, _, h⟩ := List.exists_of_findSome?_eq_some h
    obtain ⟨_, h⟩ := Option.ite_none_right_eq_some.mp h
    cases h
    exact yields_nothing hsuffix
  | doubleQuoted | singleQuoted =>
    cases cs with
    | nil => cases h
    | cons c cs =>
      obtain ⟨_, h⟩ := Option.ite_none_right_eq_some.mp h
      cases h
      exact yields_nothing hsuffix
  | number =>
    have hnil := number_eq_nil h
    cases hnil
    exact yields_nothing hsuffix
  | tag =>
    obtain ⟨⟨w, u⟩, hw, h⟩ := Option.map_eq_some_iff.mp h
    cases h
    obtain ⟨c, m, rfl, hcs, hblank, hangle, hm⟩ := of_span? hw
    exact ⟨_, hcs, .tag hblank hangle hm⟩
  | punctuation =>
    cases cs with
    | nil => cases h
    | cons c cs =>
      obtain ⟨hc, h⟩ := Option.ite_none_right_eq_some.mp h
      cases h
      exact ⟨[c], rfl, .punctuation hc⟩
  | regular =>
    obtain ⟨hne, h⟩ := Option.ite_none_left_eq_some.mp h
    cases h
    exact ⟨_, List.takeWhile_append_dropWhile.symm,
      .regular hne fun _ => of_mem_takeWhile⟩
  | operator =>
    obtain ⟨w, hw, h⟩ := List.exists_of_findSome?_eq_some h
    obtain ⟨⟨v, hv⟩, h⟩ := Option.ite_none_right_eq_some.mp h
    cases h
    refine ⟨w.toList, ?_, .operator hw⟩
    rw [← hv, List.drop_left]

end

end SourceTokens.Direct

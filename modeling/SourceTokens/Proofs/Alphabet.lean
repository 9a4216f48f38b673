/-
# `SourceTokens.Proofs.Alphabet` — what tokens look like

The text of a token is of one of six kinds (`TextClass`), and no kind admits a blank.
Some texts tell which rule they come from: only a tag gives the name of an attribute
with its equals sign, a name that begins with a digit, or a name in angle brackets, and
only an interpreter line gives the marker of an interpreter.  A source cannot forge the
marker by spelling it out.

The kinds are as narrow as they are because of the rules that come first.  A word that
begins with a digit would have been a number, one that begins with `/*` a comment, and
an asterisk or a slash is a word before it is an operator.
-/
import SourceTokens.Proofs.Interpreter
import SourceTokens.Proofs.Loop
import SourceTokens.Proofs.Yield

namespace SourceTokens

open Direct

/-! ## Kinds of texts -/

/-- The operators that do not begin with a character of words. -/
def operatorTexts : List (List Char) :=
  ["<<", "<", "+", "-", "%", "&&", "&", "||", "|"].map String.toList

/-- The kinds of texts that tokens have. -/
inductive TextClass
  | bracket
  | operator
  | word
  | name
  | angled
  | marked

namespace TextClass

/-- The texts of a kind. -/
def Contains (k : TextClass) (w : List Char) : Prop :=
  match k with
  | bracket => ∃ c, isPunctuation c ∧ w = [c]
  | operator => w ∈ operatorTexts
  | word =>
    w ≠ [] ∧ (∀ c ∈ w, isRegular c) ∧ w.head?.any Char.isDigit = false ∧
      ¬ "/*".toList <+: w
  | name => ∃ v, v ≠ [] ∧ (∀ c ∈ v, isWord c) ∧ (w = v ∨ w = v ++ ['='])
  | angled =>
    ∃ x, x ≠ [] ∧ (∀ c ∈ x, isBlank c = false ∧ isAngle c = false) ∧
      w = '<' :: (x ++ ['>'])
  | marked =>
    ∃ n, (∀ c ∈ n, isBlank c = false ∧ c.isDigit = false) ∧
      w = Token.interpreterMarker.toList ++ n

theorem not_isBlank_of_all {w : List Char} (h : w.all (!isBlank ·) = true) :
    ∀ c ∈ w, isBlank c = false := by
  intro c hc
  simpa using List.all_eq_true.mp h c hc

variable {k : TextClass} {w : List Char}

theorem Contains.ne_nil (h : k.Contains w) : w ≠ [] := by
  cases k with
  | bracket => obtain ⟨c, _, rfl⟩ := h; exact List.cons_ne_nil c []
  | operator =>
    rintro rfl
    have hmem : [] ∈ operatorTexts := h
    exact absurd hmem (by decide)
  | word => exact h.1
  | name =>
    obtain ⟨v, hv, _, rfl | rfl⟩ := h
    · exact hv
    · exact List.append_ne_nil_of_left_ne_nil hv _
  | angled => obtain ⟨x, _, _, rfl⟩ := h; exact List.cons_ne_nil _ _
  | marked =>
    obtain ⟨n, _, rfl⟩ := h
    exact List.append_ne_nil_of_left_ne_nil (by decide) n

/-- No kind admits a blank. -/
theorem Contains.not_isBlank (h : k.Contains w) : ∀ c ∈ w, isBlank c = false := by
  cases k with
  | bracket =>
    obtain ⟨c, hc, rfl⟩ := h
    have hbrackets : [';', '\x7b', '\x7d', '(', ')', '[', ']'].all (!isBlank ·) = true := by
      decide
    intro d hd
    rw [List.mem_singleton.mp hd]
    exact not_isBlank_of_all hbrackets c (of_decide_eq_true hc)
  | operator =>
    have hoperators : ∀ w ∈ operatorTexts, w.all (!isBlank ·) = true := by decide
    exact not_isBlank_of_all (hoperators w h)
  | word =>
    intro c hc
    exact not_isBlank_of_isRegular (h.2.1 c hc)
  | name =>
    obtain ⟨v, _, hv, hw⟩ := h
    have hname : ∀ c ∈ v, isBlank c = false := by
      intro c hc
      exact not_isBlank_of_isRegular (isRegular_of_isWord (hv c hc))
    rcases hw with rfl | rfl
    · exact hname
    · exact List.forall_mem_append.mpr ⟨hname, not_isBlank_of_all rfl⟩
  | angled =>
    obtain ⟨x, _, hx, rfl⟩ := h
    refine List.forall_mem_cons.mpr ⟨rfl, List.forall_mem_append.mpr ⟨?_, ?_⟩⟩
    · intro c hc
      exact (hx c hc).1
    · exact not_isBlank_of_all rfl
  | marked =>
    obtain ⟨n, hn, rfl⟩ := h
    have hmarker : Token.interpreterMarker.toList.all (!isBlank ·) = true := by decide
    refine List.forall_mem_append.mpr ⟨not_isBlank_of_all hmarker, ?_⟩
    intro c hc
    exact (hn c hc).1

/-! ## Telling kinds apart -/

theorem not_name_of_mem {c : Char} (hc : c ∈ w) (hword : isWord c = false) (heq : c ≠ '=') :
    ¬ name.Contains w := by
  rintro ⟨v, _, hv, hw⟩
  have hmem : c ∈ v := by
    rcases hw with rfl | rfl
    · exact hc
    · rcases List.mem_append.mp hc with hc | hc
      · exact hc
      · exact absurd (List.mem_singleton.mp hc) heq
  rw [hv c hmem] at hword
  cases hword

theorem not_mem_of_word {c : Char} (h : word.Contains w) (hc : isRegular c = false) : c ∉ w := by
  intro hmem
  rw [h.2.1 c hmem] at hc
  cases hc

theorem mem_of_angled (h : angled.Contains w) : '>' ∈ w := by
  obtain ⟨x, _, _, rfl⟩ := h
  exact List.mem_cons_of_mem _ (List.mem_append_right x List.mem_cons_self)

theorem not_marked_of_name (h : name.Contains w) : ¬ Token.interpreterMarker.toList <+: w := by
  intro hmark
  have hmem : '#' ∈ w := hmark.subset (by decide)
  exact not_name_of_mem hmem (by decide) (by decide) h

theorem not_marked_of_angled (h : angled.Contains w) :
    ¬ Token.interpreterMarker.toList <+: w := by
  obtain ⟨x, _, _, rfl⟩ := h
  intro hmark
  exact absurd (List.cons_prefix_cons.mp hmark).1 (by decide)

end TextClass

/-! ## What a rule finds -/

/-- What is known of the text `w` of a token that `rule` finds. -/
structure InAlphabet (rule : Rule) (w : List Char) : Prop where
  ne_nil : w ≠ []
  not_isBlank : ∀ c ∈ w, isBlank c = false
  kind : ∃ k : TextClass, k.Contains w
  tag_of_name : TextClass.name.Contains w →
    w.getLast? = some '=' ∨ w.head?.any Char.isDigit → rule = .tag
  tag_of_angled : TextClass.angled.Contains w → rule = .tag
  interpreterLine_of_marker : Token.interpreterMarker.toList <+: w → rule = .interpreterLine
  operator_ne : rule = .operator → w ≠ ['*'] ∧ w ≠ ['/']

namespace InAlphabet

variable {rule : Rule} {k : TextClass} {w : List Char}

theorem of_kind (hk : k.Contains w)
    (hname : TextClass.name.Contains w →
      w.getLast? = some '=' ∨ w.head?.any Char.isDigit → rule = .tag)
    (hangled : TextClass.angled.Contains w → rule = .tag)
    (hmark : Token.interpreterMarker.toList <+: w → rule = .interpreterLine)
    (hoperator : rule = .operator → w ≠ ['*'] ∧ w ≠ ['/']) : InAlphabet rule w :=
  ⟨hk.ne_nil, hk.not_isBlank, ⟨k, hk⟩, hname, hangled, hmark, hoperator⟩

theorem of_marked (h : TextClass.marked.Contains w) : InAlphabet .interpreterLine w := by
  obtain ⟨n, hn, rfl⟩ := h
  have hmark := List.prefix_append Token.interpreterMarker.toList n
  refine of_kind (k := .marked) ⟨n, hn, rfl⟩ ?_ ?_ (fun _ => rfl) nofun
  · intro hname _
    exact absurd hmark (TextClass.not_marked_of_name hname)
  · intro hangled
    exact absurd hmark (TextClass.not_marked_of_angled hangled)

theorem of_name (h : TextClass.name.Contains w) : InAlphabet .tag w := by
  refine of_kind h (fun _ _ => rfl) (fun _ => rfl) ?_ nofun
  intro hmark
  exact absurd hmark (TextClass.not_marked_of_name h)

theorem of_angled (h : TextClass.angled.Contains w) : InAlphabet .tag w := by
  refine of_kind h (fun _ _ => rfl) (fun _ => rfl) ?_ nofun
  intro hmark
  exact absurd hmark (TextClass.not_marked_of_angled h)

theorem of_bracket (h : TextClass.bracket.Contains w) : InAlphabet .punctuation w := by
  obtain ⟨c, hc, rfl⟩ := h
  have hothers : [';', '\x7b', '\x7d', '(', ')', '[', ']'].all
      (fun c => !isWord c ∧ c ≠ '=' ∧ c ≠ '>' ∧ c ≠ '!') = true := by decide
  obtain ⟨hword, heq, hclose, hmark⟩ :=
    of_decide_eq_true (List.all_eq_true.mp hothers c (of_decide_eq_true hc))
  refine of_kind (k := .bracket) ⟨c, hc, rfl⟩ ?_ ?_ ?_ nofun
  · intro hname _
    have hother : isWord c = false := by simpa using hword
    exact absurd hname (TextClass.not_name_of_mem List.mem_cons_self hother heq)
  · intro hangled
    have hmem : '>' ∈ [c] := TextClass.mem_of_angled hangled
    exact absurd (List.mem_singleton.mp hmem).symm hclose
  · intro hmarked
    have hmem : '!' ∈ [c] := hmarked.subset (by decide)
    exact absurd (List.mem_singleton.mp hmem).symm hmark

theorem of_word (h : TextClass.word.Contains w) : InAlphabet .regular w := by
  have hhead : w.head?.any Char.isDigit = false := h.2.2.1
  refine of_kind h ?_ ?_ ?_ nofun
  · rintro - (hlast | hdigit)
    · exact absurd (List.mem_of_getLast? hlast) (TextClass.not_mem_of_word h rfl)
    · rw [hhead] at hdigit
      cases hdigit
  · intro hangled
    exact absurd (TextClass.mem_of_angled hangled) (TextClass.not_mem_of_word h rfl)
  · intro hmarked
    exact absurd (hmarked.subset (by decide) : '!' ∈ w) (TextClass.not_mem_of_word h rfl)

theorem of_operator (h : TextClass.operator.Contains w) : InAlphabet .operator w := by
  have hothers : ∀ w ∈ operatorTexts, w.any (fun c => !isWord c && c != '=') = true ∧
      '>' ∉ w ∧ '!' ∉ w ∧ w ≠ ['*'] ∧ w ≠ ['/'] := by
    decide
  obtain ⟨hany, hclose, hmark, hne⟩ := hothers w h
  obtain ⟨c, hmem, hc⟩ := List.any_eq_true.mp hany
  obtain ⟨hword, heq⟩ : isWord c = false ∧ c ≠ '=' := by simpa using hc
  refine of_kind h ?_ ?_ ?_ (fun _ => hne)
  · intro hname _
    exact absurd hname (TextClass.not_name_of_mem hmem hword heq)
  · intro hangled
    exact absurd (TextClass.mem_of_angled hangled) hclose
  · intro hmarked
    exact absurd (hmarked.subset (by decide)) hmark

end InAlphabet

/-! ## Inside a tag -/

namespace Direct

/-- Nothing but its first character is an opening bracket in a tag, so the name of a tag
is in angle brackets and has none of its own. -/
theorem alphabet_of_tagStep {cs t : List Char} {token : Token} (h : TagStep cs (some token) t)
    (hcs : '<' ∉ cs.tail) : InAlphabet .tag token.text.toList := by
  cases h with
  | @name name _ hne hname =>
    refine .of_angled ⟨name, hne, ?_, ?_⟩
    · intro c hc
      obtain ⟨hblank, hclose⟩ : isBlank c = false ∧ c ≠ '>' := by
        simpa [isTagName] using hname c hc
      have hopen : c ≠ '<' := by
        rintro rfl
        exact hcs (List.mem_append_left _ hc)
      exact ⟨hblank, by simp [isAngle, hopen, hclose]⟩
    · rw [Token.text, String.toList_append, String.toList_ofList]
      rfl
  | assignment hne hword _ =>
    exact .of_name ⟨_, hne, hword, .inr String.toList_ofList⟩
  | identifier hne hword =>
    exact .of_name ⟨_, hne, hword, .inl String.toList_ofList⟩

theorem alphabet_of_tagTokens {cs : List Char} {token : Token} (h : token ∈ tagTokens cs)
    (hcs : '<' ∉ cs.tail) : InAlphabet .tag token.text.toList := by
  obtain ⟨s, t, hs, hstep⟩ := exists_tagStep_of_mem h
  refine alphabet_of_tagStep hstep ?_
  intro hmem
  exact hcs ((tail_suffix_tail hs).subset hmem)

/-! ## The rules -/

/-- A word that begins with a digit would have been a number, and one that begins with
`/*` a comment. -/
theorem word_of_taken? {lineStart : Bool} {w t : List Char}
    (htaken : taken? lineStart (w ++ t) = some .regular) (hne : w ≠ [])
    (hw : ∀ c ∈ w, isRegular c) : TextClass.word.Contains w := by
  have hnumber : number? (w ++ t) = none :=
    read_eq_none_of_earlier .number htaken (by decide)
  have hcomment : blockComment? (w ++ t) = none :=
    read_eq_none_of_earlier .blockComment htaken (by decide)
  refine ⟨hne, hw, ?_, ?_⟩
  · rw [← head?_append_of_ne_nil hne t]
    exact number?_eq_none_iff.mp hnumber
  · intro hfront
    exact blockComment?_eq_none_iff.mp hcomment ("/*", "*/") (by decide)
      (hfront.trans (List.prefix_append w t))

/-- An asterisk or a slash would have been a word. -/
theorem operator_of_taken? {lineStart : Bool} {o : String} {t : List Char}
    (htaken : taken? lineStart (o.toList ++ t) = some .operator) (ho : o ∈ operators) :
    TextClass.operator.Contains o.toList := by
  have hregular : regular? (o.toList ++ t) = none :=
    read_eq_none_of_earlier .regular htaken (by decide)
  have hkinds : ∀ o ∈ operators, o.toList ∈ operatorTexts
      ∨ (o.toList.head?.any isRegular = true ∧ o.toList ≠ []) := by
    decide
  rcases hkinds o ho with hkind | ⟨hhead, hne⟩
  · exact hkind
  · rw [← head?_append_of_ne_nil hne t] at hhead
    rw [regular?, if_neg (head?_takeWhile_ne_nil hhead)] at hregular
    cases hregular

/-- What a rule yields, given what the rules before it have refused. -/
theorem alphabet_of_yields {rule : Rule} {lineStart : Bool} {w t : List Char} {ts : List Token}
    (htaken : taken? lineStart (w ++ t) = some rule) (h : Yields rule w ts) {token : Token}
    (htoken : token ∈ ts) : InAlphabet rule token.text.toList := by
  cases h with
  | nothing => cases htoken
  | @interpreter _ n _ _ hn =>
    obtain rfl := List.mem_singleton.mp htoken
    exact .of_marked ⟨n.toList, (Interpreter.of_ofLine? hn).2, String.toList_append⟩
  | @tag c m _ hangle hm =>
    refine alphabet_of_tagTokens htoken ?_
    intro hmem
    rcases List.mem_cons.mp hmem with rfl | hmem
    · cases hangle
    rcases List.mem_append.mp hmem with hmem | hmem
    · exact Bool.noConfusion (hm '<' hmem)
    · exact absurd hmem (by decide)
  | @punctuation c hc =>
    obtain rfl := List.mem_singleton.mp htoken
    exact .of_bracket ⟨c, hc, String.toList_ofList⟩
  | regular hne hw =>
    obtain rfl := List.mem_singleton.mp htoken
    refine .of_word ?_
    rw [Token.text, String.toList_ofList]
    exact word_of_taken? htaken hne hw
  | operator ho =>
    obtain rfl := List.mem_singleton.mp htoken
    exact .of_operator (operator_of_taken? htaken ho)

end Direct

theorem Source.inAlphabet_of_emits {text : String} {rule : Rule} {token : Token}
    (h : Emits text rule token) : InAlphabet rule token.text.toList := by
  obtain ⟨s, _, _, hfired, htoken⟩ := h
  rw [fired?_eq] at hfired
  rw [step_eq] at htoken
  obtain ⟨w, hw, hyields⟩ := yields_of_read (read_of_taken? hfired)
  rw [hw] at hfired
  exact alphabet_of_yields hfired hyields htoken

/-- Every token is found by a rule, and what is known of its text is known by that
rule. -/
theorem Source.tokens_alphabet (text : String) :
    (∀ token, token ∈ tokens text ↔ ∃ rule, Emits text rule token) ∧
    ∀ rule token, Emits text rule token → InAlphabet rule token.text.toList := by
  exact ⟨mem_tokens_iff text, fun _ _ => inAlphabet_of_emits⟩

end SourceTokens

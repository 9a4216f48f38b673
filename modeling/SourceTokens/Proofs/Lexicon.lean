/-
# `SourceTokens.Proofs.Lexicon` — what the expressions of the grammar read

Each expression of the lexicon, matched at the front of a text, leaves what the
case of the same name leaves in the account character by character, and so does
each that is searched for.  What lies behind it is the same throughout: a
repetition is followed by nothing, or by something that cannot begin with one of
its characters, and so it never has to give any back.
-/
import SourceTokens.Proofs.Direct
import SourceTokens.Proofs.Regex.First

namespace SourceTokens.Lexicon

open SourceTokens.Regex SourceTokens.Direct

/-! ## Classes -/

theorem contains_blank (c : Char) : blank.contains c = isBlank c :=
  Class.contains_ofList _ c

theorem contains_nonBlank (c : Char) : nonBlank.contains c = !isBlank c :=
  congrArg (!·) (contains_blank c)

theorem contains_range_digit (c : Char) : (Class.range '0' '9').contains c = c.isDigit := rfl

theorem contains_range_upper (c : Char) : (Class.range 'A' 'Z').contains c = c.isUpper :=
  (Bool.decide_and _ _).symm

theorem contains_range_lower (c : Char) : (Class.range 'a' 'z').contains c = c.isLower := rfl

theorem contains_digit (c : Char) : digit.contains c = c.isDigit := by
  rw [digit, Class.contains_unions, ← contains_range_digit]
  exact Bool.or_false _

theorem contains_wordChar (c : Char) : wordChar.contains c = isWord c := by
  rw [wordChar, Class.contains_unions]
  simp only [List.any_cons, List.any_nil, contains_range_digit, contains_range_upper,
    contains_range_lower, Class.contains_char, Bool.or_false]
  show _ = (c.isUpper || c.isLower || c.isDigit || c == '_')
  rw [Bool.or_comm (c.isUpper || c.isLower), Bool.or_assoc, Bool.or_assoc]
  rfl

theorem contains_regularChar (c : Char) : regularChar.contains c = isRegular c := by
  have hword := contains_wordChar c
  rw [wordChar, Class.contains_unions] at hword
  rw [regularChar, Class.contains_unions, isRegular, ← hword]
  simp only [List.any_cons, List.any_nil, Class.contains_char, List.mem_cons,
    List.not_mem_nil, or_false, Bool.decide_or, Bool.or_false, Bool.or_assoc]

theorem contains_numeral (c : Char) :
    (Class.unions [.range '0' '9', .char '.']).contains c = isNumeral c := by
  rw [Class.contains_unions]
  simp only [List.any_cons, List.any_nil, contains_range_digit, Class.contains_char,
    Bool.or_false]
  rfl

/-- What is in neither of two lists. -/
theorem contains_compl_append (l r : List Char) (c : Char) :
    (Class.compl (.ofList (l ++ r))).contains c = (!decide (c ∈ l) && !decide (c ∈ r)) := by
  rw [Class.contains, Class.contains_ofList]
  simp only [List.mem_append, Bool.decide_or, Bool.not_or]

theorem decide_mem_angles (c : Char) : decide (c ∈ ['<', '>']) = isAngle c := by
  rw [Bool.eq_iff_iff]
  simp [isAngle]

theorem contains_tagName (c : Char) :
    (Class.compl (.ofList ['\t', '\n', '\x0c', '\r', ' ', '>'])).contains c
      = isTagName c := by
  have hclose : decide (c ∈ ['>']) = (c == '>') := by
    rw [Bool.eq_iff_iff]
    simp
  rw [isTagName, bne, ← hclose]
  exact contains_compl_append ['\t', '\n', '\x0c', '\r', ' '] ['>'] c

theorem contains_tagStart (c : Char) :
    (Class.compl (.ofList ['\t', '\n', '\x0c', '\r', ' ', '<', '>'])).contains c
      = (!isBlank c && !isAngle c) := by
  rw [← decide_mem_angles]
  exact contains_compl_append ['\t', '\n', '\x0c', '\r', ' '] ['<', '>'] c

theorem contains_tagInside (c : Char) :
    (Class.compl (.ofList ['<', '>'])).contains c = !isAngle c := by
  rw [← decide_mem_angles]
  exact contains_compl_append [] ['<', '>'] c

/-! ## Runs -/

/-- A run of one character or more. -/
theorem matchRest?_plus_one {a : Regex.Class} {p : Char → Bool} (ha : ∀ c, a.contains c = p c)
    (cs : List Char) :
    (plus (one a)).matchRest? cs
      = if cs.takeWhile p = [] then none else some (cs.dropWhile p) := by
  obtain rfl : a.contains = p := funext ha
  cases cs with
  | nil => rw [matchRest?, first_plus_nil]; rfl
  | cons c cs =>
    rw [matchRest?, first_plus_cons, List.takeWhile_cons, List.dropWhile_cons]
    split
    · rw [if_neg (List.cons_ne_nil _ _)]
      exact first_star_of_some rfl
    · rfl

/-- A run of one character or more, before something that cannot begin with one of
them. -/
theorem first_plus_of_disjoint {a : Regex.Class} {p : Char → Bool}
    (ha : ∀ c, a.contains c = p c) {k : List Char → Option (List Char)}
    (h : ∀ c t, p c = true → k (c :: t) = none) (cs : List Char) :
    (plus (one a)).first cs k
      = if cs.takeWhile p = [] then none else k (cs.dropWhile p) := by
  obtain rfl : a.contains = p := funext ha
  cases cs with
  | nil => rw [first_plus_nil]; rfl
  | cons c cs =>
    rw [first_plus_cons, List.takeWhile_cons, List.dropWhile_cons]
    split
    · rw [if_neg (List.cons_ne_nil _ _)]
      exact first_star_of_disjoint h cs
    · rfl

/-! ## Searching -/

theorem looksAhead_text (w : String) : (text w).looksAhead = true := by
  suffices h : ∀ (cs : List Char) (r : Regex), r.looksAhead = true →
      ((cs.map char).foldl seq r).looksAhead = true by
    unfold text
    cases w.toList with
    | nil => rfl
    | cons c cs => exact h cs (char c) rfl
  intro cs
  induction cs with
  | nil =>
    intro _ hr
    exact hr
  | cons c cs ih =>
    intro r hr
    exact ih _ (Bool.and_eq_true_iff.mpr ⟨hr, rfl⟩)

theorem findRest?_text (w : String) (cs : List Char) :
    (text w).findRest? cs = after? w.toList cs := by
  have hlook := looksAhead_text w
  induction cs with
  | nil =>
    rw [findRest?_nil, matchRest?, first_text, after?]
    simp only [List.prefix_nil, List.drop_nil]
  | cons c cs ih =>
    rw [findRest?_cons hlook, ih, matchRest?, first_text, after?]
    split <;> rfl

theorem first_textEnd {α : Type} (cs : List Char) (k : List Char → Option α) :
    (assert .textEnd).first cs k = if cs = [] then k cs else none := by
  cases cs with
  | nil => exact List.findSome?_singleton
  | cons c cs => rfl

theorem findRest?_lineEnd (cs : List Char) : lineEnd.findRest? cs = some (afterLine cs) := by
  have hmatch : ∀ cs, lineEnd.matchRest? cs
      = ((char '\n').first cs some).or (if cs = [] then some cs else none) := by
    intro cs
    rw [← first_textEnd]
    exact first_alt cs some _ _
  induction cs with
  | nil => rw [findRest?_nil, hmatch]; rfl
  | cons c cs ih =>
    rw [findRest?_cons rfl, hmatch, ih, first_char_cons, if_neg (List.cons_ne_nil c cs),
      Option.or_none, afterLine, afterLine, List.dropWhile_cons]
    by_cases hc : c = '\n'
    · simp [hc]
    · simp [hc]

theorem findRest?_stringEnd (quote : Char) (cs : List Char) :
    (stringEnd quote).findRest? cs = afterQuote? quote cs := by
  have hmatch : ∀ cs, (stringEnd quote).matchRest? cs
      = (one (.compl (.unions [.char '\\']))).first cs
          fun t => (char quote).first t some :=
    fun cs => first_seq cs some _ rfl
  have hone : ∀ c, (Class.compl (.unions [.char '\\'])).contains c = decide (c ≠ '\\') := by
    intro c
    simp [Class.contains, Class.contains_unions, Class.contains_char]
  induction cs with
  | nil => rw [findRest?_nil, hmatch]; rfl
  | cons c cs ih =>
    rw [findRest?_cons rfl, hmatch, ih, first_one_cons, hone]
    cases cs with
    | nil =>
      rw [first_char_nil, ite_self]
      rfl
    | cons d cs =>
      rw [first_char_cons, afterQuote?]
      by_cases hc : c = '\\'
      · simp [hc]
      · by_cases hd : d = quote
        · simp [hc, hd]
        · simp [hc, hd]

/-! ## The main loop -/

theorem matchRest?_interpreterLine (cs : List Char) :
    interpreterLine.matchRest? cs
      = if "#!".toList <+: cs.takeWhile (· ≠ '\n') ∧ cs.takeWhile (· ≠ '\n') ≠ "#!".toList
        then some (cs.dropWhile (· ≠ '\n')) else none := by
  have hmatch : interpreterLine.matchRest? cs
      = (text "#!").first cs (plus (one .notNewline)).matchRest? :=
    first_seq cs some (text "#!") rfl
  rw [hmatch, first_text]
  by_cases h : "#!".toList <+: cs
  · obtain ⟨t, rfl⟩ := h
    have hmark : "#!".toList.all (· ≠ '\n') = true := by decide
    have hpos := List.all_eq_true.mp hmark
    rw [if_pos (List.prefix_append _ t), matchRest?_plus_one Class.contains_notNewline,
      List.takeWhile_append_of_pos hpos, List.dropWhile_append_of_pos hpos, List.drop_left]
    by_cases hline : t.takeWhile (· ≠ '\n') = []
    · rw [if_pos hline, if_neg]
      rintro ⟨_, hne⟩
      rw [hline, List.append_nil] at hne
      exact hne rfl
    · rw [if_neg hline, if_pos]
      refine ⟨List.prefix_append _ _, ?_⟩
      intro h
      exact hline (List.append_right_eq_self.mp h)
  · rw [if_neg h, if_neg fun hline => h (hline.1.trans (List.takeWhile_prefix _))]

/-- What does not begin with a blank is not found at one. -/
theorem not_prefix_cons_blank {w : List Char} (hw : w.head?.any (!isBlank ·) = true)
    {c : Char} (hc : isBlank c = true) (cs : List Char) : ¬ w <+: c :: cs := by
  intro h
  cases w with
  | nil => cases hw
  | cons d w =>
    obtain ⟨rfl, _⟩ := List.cons_prefix_cons.mp h
    have hd : (!isBlank d) = true := hw
    rw [hc] at hd
    cases hd

/-- No mark of a line comment begins with a blank. -/
theorem not_prefix_of_isBlank {w : String} (hw : w ∈ lineMarks) {c : Char}
    (hc : isBlank c = true) (cs : List Char) : ¬ w.toList <+: c :: cs := by
  have hmarks : ∀ w ∈ lineMarks, w.toList.head?.any (!isBlank ·) = true := by decide
  exact not_prefix_cons_blank (hmarks w hw) hc cs

theorem matchRest?_lineComment (cs : List Char) :
    lineComment.matchRest? cs
      = lineMarks.findSome? fun w =>
          if w.toList <+: cs.dropWhile isBlank
          then some ((cs.dropWhile isBlank).drop w.toList.length) else none := by
  have hmarks : ∀ cs, (oneOf (lineMarks.map text)).first cs some
      = lineMarks.findSome? fun w =>
          if w.toList <+: cs then some (cs.drop w.toList.length) else none :=
    fun cs => first_oneOf_text cs some _ _
  have hmatch : lineComment.matchRest? cs
      = (star (one blank)).first cs fun t => (oneOf (lineMarks.map text)).first t some :=
    first_seq cs some _ rfl
  rw [hmatch, first_star_of_disjoint, hmarks,
    show blank.contains = isBlank from funext contains_blank]
  intro c t hc
  rw [contains_blank] at hc
  rw [hmarks, List.findSome?_eq_none_iff]
  intro w hw
  exact if_neg (not_prefix_of_isBlank hw hc t)

theorem matchRest?_blockOpening (cs : List Char) :
    blockOpening.matchRest? cs
      = brackets.findSome? fun b =>
          if b.1.toList <+: cs then some (cs.drop b.1.toList.length) else none := by
  have h := first_oneOf_text cs some "/*" (brackets.tail.map (·.1))
  rw [show "/*" :: brackets.tail.map (·.1) = brackets.map (·.1) from rfl,
    List.findSome?_map] at h
  exact h

theorem matchRest?_number (cs : List Char) :
    number.matchRest? cs = (number? cs).map (·.2) := by
  have hdigits : ∀ t, ((one digit).first t fun t =>
        (star (one (.unions [.range '0' '9', .char '.']))).first t some)
      = if t.head?.any Char.isDigit then some (t.dropWhile isNumeral) else none := by
    intro t
    cases t with
    | nil => rfl
    | cons c t =>
      have hnumeral : c.isDigit = true → isNumeral c = true := by
        intro h
        rw [isNumeral, h, Bool.true_or]
      rw [first_one_cons, contains_digit, List.head?_cons, Option.any_some,
        first_star_of_some rfl, funext contains_numeral, List.dropWhile_cons]
      split
      case isTrue h => rw [if_pos (hnumeral h)]
      case isFalse => rfl
  have hmatch : number.matchRest? cs
      = (opt (text "0x")).first cs fun t => (one digit).first t fun t =>
          (star (one (.unions [.range '0' '9', .char '.']))).first t some := by
    have hstar := first_seq cs some (seq (opt (text "0x")) (one digit))
      (s := star (one (.unions [.range '0' '9', .char '.']))) rfl
    exact hstar.trans (first_seq cs _ _ rfl)
  rw [hmatch, first_opt, first_text, hdigits, hdigits, number?,
    show "0x".toList.length = 2 from rfl]
  by_cases h : "0x".toList <+: cs
  · by_cases hd : (cs.drop 2).head?.any Char.isDigit = true
    · have hboth : "0x".toList <+: cs ∧ (cs.drop 2).head?.any Char.isDigit = true := ⟨h, hd⟩
      rw [if_pos h, if_pos hd, if_pos hboth]
      rfl
    · rw [if_pos h, if_neg hd, Option.none_or,
        if_neg fun hh : "0x".toList <+: cs ∧ _ => hd hh.2]
      split <;> rfl
  · rw [if_neg h, Option.none_or, if_neg fun hh : "0x".toList <+: cs ∧ _ => h hh.1]
    split <;> rfl

theorem matchRest?_tagSpan (cs : List Char) :
    tagSpan.matchRest? cs = (span? cs).map (·.2) := by
  have hinside : ∀ t, ((star (one (.compl (.ofList ['<', '>'])))).first t fun t =>
        (char '>').first t some)
      = if (t.dropWhile (!isAngle ·)).head? = some '>'
        then some (t.dropWhile (!isAngle ·)).tail else none := by
    intro t
    rw [first_star_of_disjoint, funext contains_tagInside]
    · cases t.dropWhile (!isAngle ·) with
      | nil => rfl
      | cons c t => simp [first_char_cons]
    · intro c t hc
      rw [contains_tagInside] at hc
      rw [first_char_cons, if_neg]
      rintro rfl
      exact absurd hc (by decide)
  have hmatch : tagSpan.matchRest? cs
      = (char '<').first cs fun t =>
          (one (.compl (.ofList ['\t', '\n', '\x0c', '\r', ' ', '<', '>']))).first t fun t =>
            (star (one (.compl (.ofList ['<', '>'])))).first t fun t =>
              (char '>').first t some := by
    refine (first_seq cs some _ (s := char '>') rfl).trans ?_
    exact (first_seq cs _ _ rfl).trans (first_seq cs _ _ rfl)
  rw [hmatch]
  cases cs with
  | nil => rfl
  | cons c cs =>
    rw [first_char_cons]
    by_cases hc : c = '<'
    · subst hc
      cases cs with
      | nil => rfl
      | cons d cs =>
        rw [if_pos rfl, first_one_cons, contains_tagStart, hinside, span?]
        simp only [Bool.and_eq_true]
        by_cases hd : (!isBlank d) = true ∧ (!isAngle d) = true
        · by_cases hclose : (cs.dropWhile (!isAngle ·)).head? = some '>'
          · rw [if_pos hd, if_pos hclose, if_pos ⟨hd.1, hd.2, hclose⟩]
            rfl
          · rw [if_pos hd, if_neg hclose, if_neg fun h => hclose h.2.2]
            rfl
        · rw [if_neg hd, if_neg fun h => hd ⟨h.1, h.2.1⟩]
          rfl
    · rw [if_neg hc, span?_cons_of_ne hc]
      rfl

theorem matchRest?_punctuation (cs : List Char) :
    punctuation.matchRest? cs = (punctuation? cs).map (·.2) := by
  cases cs with
  | nil => rfl
  | cons c cs =>
    rw [matchRest?, punctuation, first_one_cons, Class.contains_ofList, punctuation?,
      isPunctuation]
    split <;> rfl

theorem matchRest?_regular (cs : List Char) :
    regular.matchRest? cs = (regular? cs).map (·.2) := by
  rw [regular, matchRest?_plus_one contains_regularChar, regular?]
  split <;> rfl

/-- A character that may be doubled, preferably doubled. -/
theorem first_doubled (c : Char) (cs : List Char) :
    (seq (char c) (opt (char c))).first cs some
      = (if [c, c] <+: cs then some (cs.drop 2) else none).or
          (if [c] <+: cs then some (cs.drop 1) else none) := by
  rw [first_seq _ _ _ rfl]
  cases cs with
  | nil => simp [first_char_nil]
  | cons d cs =>
    rw [first_char_cons, first_opt]
    by_cases hd : d = c
    · subst hd
      cases cs with
      | nil => simp [first_char_nil]
      | cons e cs =>
        rw [first_char_cons]
        by_cases he : e = d
        · simp [he]
        · simp [he, Ne.symm he]
    · simp [hd, Ne.symm hd]

theorem findSome?_cons_eq_or {α β : Type} (f : α → Option β) (a : α) (l : List α) :
    (a :: l).findSome? f = (f a).or (l.findSome? f) := by
  rw [List.findSome?_cons]
  cases f a <;> rfl

theorem matchRest?_operator (cs : List Char) :
    operator.matchRest? cs = (operator? cs).map (·.2) := by
  have hread : ∀ w : String, (text w).first cs some
      = if w.toList <+: cs then some (cs.drop w.toList.length) else none :=
    first_text cs some
  have hexpr : operator.matchRest? cs
      = [concat [char '<', opt (char '<')], text "+", text "-", text "*", text "/",
          text "%", concat [char '&', opt (char '&')],
          concat [char '|', opt (char '|')]].findSome? fun r => r.first cs some :=
    first_oneOf cs some _ _
  have hcase : (operator? cs).map (·.2)
      = operators.findSome? fun w =>
          if w.toList <+: cs then some (cs.drop w.toList.length) else none := by
    rw [operator?, List.map_findSome?]
    congr 1
    funext w
    show Option.map _ (if _ then _ else _) = _
    split <;> rfl
  rw [hexpr, hcase, operators]
  simp only [findSome?_cons_eq_or, List.findSome?_nil, hread]
  rw [show concat [char '<', opt (char '<')] = seq (char '<') (opt (char '<')) from rfl,
    show concat [char '&', opt (char '&')] = seq (char '&') (opt (char '&')) from rfl,
    show concat [char '|', opt (char '|')] = seq (char '|') (opt (char '|')) from rfl,
    first_doubled, first_doubled, first_doubled]
  simp only [Option.or_assoc]
  rfl

/-! ## Inside a tag -/

theorem matchRest?_tagOpening (cs : List Char) :
    tagOpening.matchRest? cs
      = if cs.head? = some '<' ∧ cs.tail.takeWhile isTagName ≠ []
        then some (cs.tail.dropWhile isTagName) else none := by
  let name := Class.compl (.ofList ['\t', '\n', '\x0c', '\r', ' ', '>'])
  have hmatch : tagOpening.matchRest? cs
      = (char '<').first cs fun t => (opt (char '/')).first t (plus (one name)).matchRest? :=
    (first_seq cs some _ rfl).trans (first_seq cs _ _ rfl)
  rw [hmatch]
  cases cs with
  | nil => rfl
  | cons c cs =>
    rw [first_char_cons, List.head?_cons, List.tail_cons, first_opt]
    by_cases hc : c = '<'
    · subst hc
      -- A slash is itself part of a name: read by itself or not, the run ends alike.
      have hslash : ((char '/').first cs (plus (one name)).matchRest?).or
            ((plus (one name)).matchRest? cs)
          = (plus (one name)).matchRest? cs := by
        cases cs with
        | nil => rfl
        | cons d cs =>
          rw [first_char_cons]
          by_cases hd : d = '/'
          · subst hd
            rw [if_pos rfl, matchRest?_plus_one contains_tagName,
              matchRest?_plus_one contains_tagName, List.takeWhile_cons,
              List.dropWhile_cons]
            simp only [show isTagName '/' = true from rfl, if_true, List.cons_ne_nil,
              if_false]
            split <;> rfl
          · rw [if_neg hd, Option.none_or]
      rw [if_pos rfl, hslash, matchRest?_plus_one contains_tagName]
      split <;> simp_all
    · rw [if_neg hc, if_neg fun h => hc (Option.some.inj h.1)]

theorem matchRest?_identifier (cs : List Char) :
    identifier.matchRest? cs
      = if cs.takeWhile isWord = [] then none else some (cs.dropWhile isWord) :=
  matchRest?_plus_one contains_wordChar cs

theorem matchRest?_assignment (cs : List Char) :
    assignment.matchRest? cs
      = if cs.takeWhile isWord ≠ [] ∧ (cs.dropWhile isWord).head? = some '='
        then some (cs.dropWhile isWord).tail else none := by
  have hmatch : assignment.matchRest? cs
      = identifier.first cs fun t => (char '=').first t some :=
    first_seq cs some identifier rfl
  rw [hmatch, identifier, first_plus_of_disjoint contains_wordChar]
  · cases cs.dropWhile isWord with
    | nil => simp [first_char_nil]
    | cons c t =>
      rw [first_char_cons, List.head?_cons, List.tail_cons]
      by_cases hword : cs.takeWhile isWord = []
      · rw [if_pos hword, if_neg fun h => h.1 hword]
      by_cases hc : c = '='
      · rw [if_neg hword, if_pos hc, if_pos ⟨hword, congrArg some hc⟩]
      · rw [if_neg hword, if_neg hc, if_neg fun h => hc (Option.some.inj h.2)]
  · intro c t hc
    rw [first_char_cons, if_neg]
    rintro rfl
    exact absurd hc (by decide)

theorem findRest?_identifier (cs : List Char) :
    identifier.findRest? cs
      = if cs.any isWord then some ((cs.dropWhile (!isWord ·)).dropWhile isWord)
        else none := by
  induction cs with
  | nil => rw [findRest?_nil, matchRest?_identifier]; rfl
  | cons c cs ih =>
    rw [findRest?_cons rfl, matchRest?_identifier, ih, List.takeWhile_cons,
      List.dropWhile_cons, List.dropWhile_cons, List.any_cons]
    cases hc : isWord c with
    | true =>
      have hstart : List.dropWhile isWord (c :: cs) = cs.dropWhile isWord := by
        rw [List.dropWhile_cons, if_pos hc]
      rw [if_pos rfl, if_pos rfl, if_neg (List.cons_ne_nil _ _)]
      exact congrArg some hstart.symm
    | false => rfl

/-! ## Inside an interpreter line -/

theorem matchRest?_interpreterMark (cs : List Char) :
    interpreterMark.matchRest? cs
      = if "#!".toList <+: cs then some ((cs.drop 2).dropWhile isBlank) else none := by
  have hblanks : ∀ t, (star (one blank)).first t some = some (t.dropWhile isBlank) := by
    intro t
    rw [← show blank.contains = isBlank from funext contains_blank]
    exact first_star_of_some rfl
  have hmatch : interpreterMark.matchRest? cs
      = (text "#!").first cs fun t => (star (one blank)).first t some :=
    first_seq cs some (text "#!") rfl
  rw [hmatch, first_text, hblanks]
  rfl

theorem matchRest?_blanks (cs : List Char) :
    blanks.matchRest? cs
      = if cs.takeWhile isBlank = [] then none else some (cs.dropWhile isBlank) :=
  matchRest?_plus_one contains_blank cs

theorem matchRest?_nonBlanks (cs : List Char) :
    nonBlanks.matchRest? cs
      = if cs.takeWhile (!isBlank ·) = [] then none else some (cs.dropWhile (!isBlank ·)) :=
  matchRest?_plus_one contains_nonBlank cs

/-- What follows an equals sign with a value, and the blanks after the value. -/
def afterEquals? : List Char → Option (List Char)
  | [] => none
  | c :: cs =>
    if c = '=' ∧ cs.takeWhile (!isBlank ·) ≠ [] ∧ cs.dropWhile (!isBlank ·) ≠ [] then
      some ((cs.dropWhile (!isBlank ·)).dropWhile isBlank)
    else none

/-- The last equals sign of the line is read that has a value and blanks after it: of the
repetition that leads to it, the longest is tried first. -/
theorem matchRest?_settings (cs : List Char) :
    settings.matchRest? cs = (star (one .notNewline)).first cs afterEquals? := by
  have hblank : ∀ c, (!isBlank c) = false → isBlank c = true := by
    intro c hc
    simpa using hc
  have hvalue : ∀ t, nonBlanks.first t blanks.matchRest?
      = if t.takeWhile (!isBlank ·) ≠ [] ∧ t.dropWhile (!isBlank ·) ≠ [] then
          some ((t.dropWhile (!isBlank ·)).dropWhile isBlank) else none := by
    intro t
    rw [nonBlanks, first_plus_of_disjoint contains_nonBlank, matchRest?_blanks]
    · simp only [takeWhile_dropWhile_eq_nil_iff hblank, ite_not, ne_eq, ite_and]
    · intro c u hc
      have hno : ¬ isBlank c = true := by simpa using hc
      rw [matchRest?_blanks, List.takeWhile_cons_of_neg hno]
      exact if_pos rfl
  have hmatch : settings.matchRest? cs
      = (star (one .notNewline)).first cs fun t =>
          (char '=').first t fun t => nonBlanks.first t blanks.matchRest? := by
    refine (first_seq cs some _ (s := blanks) rfl).trans ?_
    exact (first_seq cs _ _ rfl).trans (first_seq cs _ _ rfl)
  rw [hmatch]
  refine congrArg ((star (one .notNewline)).first cs) (funext ?_)
  intro t
  cases t with
  | nil => rfl
  | cons c t =>
    rw [first_char_cons, hvalue, afterEquals?]
    by_cases hc : c = '='
    · rw [if_pos hc]
      simp only [hc, true_and]
    · rw [if_neg hc, if_neg fun h => hc h.1]

end SourceTokens.Lexicon

/-
# `SourceTokens.Proofs.Words` — an interpreter line, word by word

A second account of what a line names as its interpreter, in terms of its words.  The first
word after the mark is a path.  If the path leads to `env`, the settings that follow it are
passed over, and the interpreter is the word after them; `named?` says so without any
expression.  That the two accounts agree (`ofLine?_eq_named`) comes down to the expression
for settings, `.*=[^\t\n\f\r ]+[\t\n\f\r ]+`.  Its first part is greedy and stops at newlines
alone, and so it passes over everything through the *last* word of the first line that is a
setting, words that are none included (`first_afterEquals`).

`runs p cs` lists the maximal runs of characters of one kind, each with what follows it: the
words of a text are its runs of characters that are no blanks, and what is left of a name
without its version is the first run of characters that are no digits.
-/
import Mathlib.Data.List.DropRight
import SourceTokens.Proofs.Interpreter

namespace SourceTokens

open Direct

/-! ## Maximal runs -/

/-- The maximal runs of characters that pass a test, each with what follows it. -/
def runs (p : Char → Bool) : List Char → List (List Char × List Char)
  | [] => []
  | c :: cs =>
    if p c then (c :: cs.takeWhile p, cs.dropWhile p) :: runs p (cs.dropWhile p)
    else runs p cs
termination_by cs => cs.length
decreasing_by
  · exact Nat.lt_succ_of_le (List.dropWhile_suffix p).length_le
  · exact Nat.lt_succ_self _

/-- The first run; nothing if there is none. -/
def firstRun (p : Char → Bool) (cs : List Char) : List Char :=
  ((runs p cs).head?.map (·.1)).getD []

section Runs

variable {p : Char → Bool} {c : Char} {cs w t : List Char}

theorem runs_nil : runs p [] = [] := by
  rw [runs]

theorem runs_cons_of_neg (hc : p c = false) (cs : List Char) : runs p (c :: cs) = runs p cs := by
  rw [runs, hc]
  exact if_neg Bool.false_ne_true

/-- A run ends with the text or before a character of another kind. -/
theorem runs_append (hw : w ≠ []) (hp : ∀ c ∈ w, p c = true) (ht : ∀ c ∈ t.head?, p c = false) :
    runs p (w ++ t) = (w, t) :: runs p t := by
  obtain ⟨htake, hdrop⟩ := run_maximal hp ht
  obtain ⟨c, w, rfl⟩ := List.exists_cons_of_ne_nil hw
  have hc := hp c List.mem_cons_self
  rw [List.cons_append, List.takeWhile_cons_of_pos hc] at htake
  rw [List.cons_append, List.dropWhile_cons_of_pos hc] at hdrop
  rw [List.cons_append, runs, if_pos hc, htake, hdrop]

/-- A text is nothing, or a character of another kind and a text, or a maximal run and a
text. -/
@[elab_as_elim]
theorem runsInduction (p : Char → Bool) {motive : List Char → Prop} (nil : motive [])
    (other : ∀ c cs, p c = false → motive cs → motive (c :: cs))
    (run : ∀ w t, w ≠ [] → (∀ c ∈ w, p c = true) → (∀ c ∈ t.head?, p c = false) →
      motive t → motive (w ++ t))
    (cs : List Char) : motive cs := by
  induction cs using runs.induct p with
  | case1 => exact nil
  | case2 c cs hc ih =>
    have hsplit : c :: cs = (c :: cs.takeWhile p) ++ cs.dropWhile p := by
      rw [List.cons_append, List.takeWhile_append_dropWhile]
    rw [hsplit]
    refine run _ _ (List.cons_ne_nil c _) ?_ ?_ ih
    · intro d hd
      rcases List.mem_cons.mp hd with rfl | hd
      · exact hc
      · exact of_mem_takeWhile hd
    · intro d hd
      obtain ⟨t, ht⟩ := List.head?_eq_some_iff.mp hd
      exact of_dropWhile_eq_cons ht
  | case3 c cs hc ih => exact other c cs (Bool.eq_false_iff.mpr hc) ih

/-- The first run begins where the characters of the other kind end. -/
theorem runs_eq (p : Char → Bool) (cs : List Char) :
    runs p cs = if cs.dropWhile (!p ·) = [] then []
      else ((cs.dropWhile (!p ·)).takeWhile p, (cs.dropWhile (!p ·)).dropWhile p)
        :: runs p ((cs.dropWhile (!p ·)).dropWhile p) := by
  induction cs with
  | nil => exact runs_nil
  | cons c cs ih =>
    cases hc : p c with
    | true =>
      rw [List.dropWhile_cons_of_neg (by simp [hc]), if_neg (List.cons_ne_nil c cs),
        List.takeWhile_cons_of_pos hc, List.dropWhile_cons_of_pos hc, runs, if_pos hc]
    | false =>
      rw [List.dropWhile_cons_of_pos (by simp [hc]), runs_cons_of_neg hc]
      exact ih

theorem firstRun_eq (p : Char → Bool) (cs : List Char) :
    firstRun p cs = (cs.dropWhile (!p ·)).takeWhile p := by
  rw [firstRun, runs_eq]
  split
  case isTrue hnil =>
    rw [hnil]
    rfl
  case isFalse => rfl

/-- What is listed is a run, and it is maximal. -/
theorem of_mem_runs (h : (w, t) ∈ runs p cs) :
    w ≠ [] ∧ (∀ c ∈ w, p c = true) ∧ (∀ c ∈ t.head?, p c = false) ∧
      ∃ u, cs = u ++ (w ++ t) ∧ ∀ c ∈ u.getLast?, p c = false := by
  induction cs using runsInduction p with
  | nil =>
    rw [runs_nil] at h
    cases h
  | other c cs hc ih =>
    rw [runs_cons_of_neg hc] at h
    obtain ⟨hw, hp, ht, u, rfl, hu⟩ := ih h
    refine ⟨hw, hp, ht, c :: u, rfl, ?_⟩
    intro d hd
    cases u with
    | nil =>
      cases hd
      exact hc
    | cons e u =>
      rw [List.getLast?_cons_cons] at hd
      exact hu d hd
  | run v s hv hp hs ih =>
    rw [runs_append hv hp hs] at h
    rcases List.mem_cons.mp h with heq | h
    · cases heq
      exact ⟨hv, hp, hs, [], rfl, nofun⟩
    · obtain ⟨hw, hpw, ht, u, rfl, hu⟩ := ih h
      refine ⟨hw, hpw, ht, v ++ u, (List.append_assoc v u _).symm, ?_⟩
      intro d hd
      cases hlast : u.getLast? with
      | some e =>
        rw [List.getLast?_append, hlast] at hd
        exact hu d (hlast.trans hd)
      | none =>
        -- The run would begin where the one before it ends.
        obtain rfl := List.getLast?_eq_none_iff.mp hlast
        obtain ⟨e, w, rfl⟩ := List.exists_cons_of_ne_nil hw
        have hno := hs e rfl
        rw [hpw e List.mem_cons_self] at hno
        cases hno

end Runs

/-! ## The account by words -/

/-- The words of a text, each with what follows it. -/
def words (cs : List Char) : List (List Char × List Char) := runs (!isBlank ·) cs

section Words

variable {c : Char} {cs w t : List Char}

theorem words_nil : words [] = [] := runs_nil

theorem words_cons_blank (hc : isBlank c = true) (cs : List Char) :
    words (c :: cs) = words cs := by
  refine runs_cons_of_neg ?_ cs
  rw [hc]
  rfl

theorem words_append (hw : w ≠ []) (hp : ∀ c ∈ w, isBlank c = false)
    (ht : ∀ c ∈ t.head?, isBlank c = true) : words (w ++ t) = (w, t) :: words t := by
  refine runs_append hw ?_ ?_
  · intro c hc
    rw [hp c hc]
    rfl
  · intro c hc
    rw [ht c hc]
    rfl

theorem words_eq (cs : List Char) :
    words cs = if cs.dropWhile isBlank = [] then []
      else ((cs.dropWhile isBlank).takeWhile (!isBlank ·),
          (cs.dropWhile isBlank).dropWhile (!isBlank ·))
        :: words ((cs.dropWhile isBlank).dropWhile (!isBlank ·)) := by
  have h := runs_eq (!isBlank ·) cs
  simp only [Bool.not_not] at h
  exact h

/-- A text that does not begin with a blank begins with a word. -/
theorem firstRun_nonBlank (h : cs.dropWhile isBlank = cs) :
    firstRun (!isBlank ·) cs = cs.takeWhile (!isBlank ·) := by
  rw [firstRun_eq]
  simp only [Bool.not_not]
  rw [h]

end Words

namespace Interpreter

/-- What follows the last `d`; all of it if there is none. -/
def afterLast (d : Char) : List Char → List Char
  | [] => []
  | c :: cs => if d ∈ cs then afterLast d cs else if c = d then cs else c :: cs

/-- The words of `line` that have an equals sign in them, but not as their last character, and
blanks behind them when `below` comes after the line; each with all that follows it. -/
def settingsIn (line below : List Char) : List (List Char × List Char) :=
  ((words line).map fun a => (a.1, a.2 ++ below)).filter fun a =>
    '=' ∈ a.1.dropLast ∧ a.2.head?.any isBlank

/-- The settings in the first line of a text. -/
def settings (cs : List Char) : List (List Char × List Char) :=
  settingsIn (cs.takeWhile (· ≠ '\n')) (cs.dropWhile (· ≠ '\n'))

/-- What follows the last setting and the blanks behind it; all of it if there is none. -/
def afterSettings (cs : List Char) : List Char :=
  ((settings cs).getLast?.map (·.2.dropWhile isBlank)).getD cs

/-- The word that names the interpreter. -/
def namingWord? : List Char → Option (List Char)
  | '#' :: '!' :: cs =>
    match words cs with
    | [] => none
    | (path, t) :: _ =>
      if afterLast '/' path = ['e', 'n', 'v'] then
        let left := afterSettings (t.dropWhile isBlank)
        if left = [] then none else some (firstRun (!isBlank ·) left)
      else some (afterLast '/' path)
  | _ => none

/-- The interpreter that a line names, by the words of the line. -/
def named? (line : List Char) : Option (List Char) :=
  (namingWord? line).map (firstRun (!·.isDigit))

/-! ## Settings -/

section Settings

variable {c : Char} {cs w t : List Char}

theorem settings_nil : settings [] = [] := by
  show List.filter _ (List.map _ (words [])) = []
  rw [words_nil]
  rfl

theorem settings_newline (cs : List Char) : settings ('\n' :: cs) = [] := by
  show List.filter _ (List.map _ (words [])) = []
  rw [words_nil]
  rfl

theorem settings_blank (hc : isBlank c = true) (hline : c ≠ '\n') (cs : List Char) :
    settings (c :: cs) = settings cs := by
  have hpos : decide (c ≠ '\n') = true := decide_eq_true hline
  have hfront : (c :: cs).takeWhile (· ≠ '\n') = c :: cs.takeWhile (· ≠ '\n') :=
    List.takeWhile_cons_of_pos hpos
  have hback : (c :: cs).dropWhile (· ≠ '\n') = cs.dropWhile (· ≠ '\n') :=
    List.dropWhile_cons_of_pos hpos
  rw [settings, hfront, hback, settingsIn, words_cons_blank hc]
  rfl

/-- A word stands in the first line as a whole. -/
theorem settings_word (hw : w ≠ []) (hp : ∀ c ∈ w, isBlank c = false)
    (ht : ∀ c ∈ t.head?, isBlank c = true) :
    settings (w ++ t)
      = (if '=' ∈ w.dropLast ∧ t ≠ [] then [(w, t)] else []) ++ settings t := by
  have hline : ∀ c ∈ w, decide (c ≠ '\n') = true := by
    intro c hc
    refine decide_eq_true ?_
    rintro rfl
    cases hp _ hc
  have hstop : ∀ c ∈ (t.takeWhile (· ≠ '\n')).head?, isBlank c = true := by
    intro c hc
    obtain ⟨u, hu⟩ := List.head?_eq_some_iff.mp hc
    refine ht c ?_
    rw [← List.takeWhile_append_dropWhile (p := (· ≠ '\n')) (l := t), hu]
    rfl
  have hbehind : t.head?.any isBlank = true ↔ t ≠ [] := by
    cases t with
    | nil => simp
    | cons c t => simp [ht c rfl]
  rw [settings, List.takeWhile_append_of_pos hline, List.dropWhile_append_of_pos hline,
    settingsIn, words_append hw hp hstop, List.map_cons, List.filter_cons,
    List.takeWhile_append_dropWhile]
  simp only [hbehind, decide_eq_true_eq]
  split
  · rfl
  · rfl

/-- The signs of a word all lead to its end. -/
theorem first_afterEquals_word (hp : ∀ c ∈ w, isBlank c = false)
    (ht : ∀ c ∈ t.head?, isBlank c = true) :
    (Regex.star (.one .notNewline)).first (w ++ t) Lexicon.afterEquals?
      = ((Regex.star (.one .notNewline)).first t Lexicon.afterEquals?).or
          (if '=' ∈ w.dropLast ∧ t ≠ [] then some (t.dropWhile isBlank) else none) := by
  induction w with
  | nil =>
    rw [if_neg fun h => List.not_mem_nil h.1, Option.or_none]
    rfl
  | cons c w ih =>
    obtain ⟨hc, hp⟩ := List.forall_mem_cons.mp hp
    have hline : decide (c ≠ '\n') = true := by
      refine decide_eq_true ?_
      rintro rfl
      cases hc
    obtain ⟨htake, hdrop⟩ := run_maximal (p := (!isBlank ·)) (w := w) (t := t)
      (fun d hd => by rw [hp d hd]; rfl) (fun d hd => by rw [ht d hd]; rfl)
    have hsign : Lexicon.afterEquals? (c :: (w ++ t))
        = if c = '=' ∧ w ≠ [] ∧ t ≠ [] then some (t.dropWhile isBlank) else none := by
      rw [Lexicon.afterEquals?, htake, hdrop]
    have hfront : '=' ∈ (c :: w).dropLast ↔ '=' ∈ w.dropLast ∨ c = '=' ∧ w ≠ [] := by
      cases w with
      | nil => simp
      | cons d w => simp [or_comm, eq_comm]
    rw [List.cons_append, Regex.first_star_cons, Regex.Class.contains_notNewline, if_pos hline,
      ih hp, hsign, Option.or_assoc]
    refine congrArg (Option.or _) ?_
    by_cases hlater : '=' ∈ w.dropLast ∧ t ≠ []
    · rw [if_pos hlater, Option.some_or]
      exact (if_pos ⟨hfront.mpr (.inl hlater.1), hlater.2⟩).symm
    · rw [if_neg hlater, Option.none_or]
      refine if_congr ?_ rfl rfl
      rw [hfront]
      tauto

/-- The greedy part goes over the whole line and comes back to the last equals sign that will
do.  The induction follows the words, since within a word every such sign leads to the end of
that word. -/
theorem first_afterEquals (cs : List Char) :
    (Regex.star (.one .notNewline)).first cs Lexicon.afterEquals?
      = (settings cs).getLast?.map (·.2.dropWhile isBlank) := by
  induction cs using runsInduction (!isBlank ·) with
  | nil =>
    rw [Regex.first_star_nil, settings_nil]
    rfl
  | other c cs hc ih =>
    have hblank : isBlank c = true := by simpa using hc
    have hnone : Lexicon.afterEquals? (c :: cs) = none := by
      refine if_neg ?_
      rintro ⟨rfl, -⟩
      cases hc
    rw [Regex.first_star_cons, Regex.Class.contains_notNewline, hnone, Option.or_none]
    by_cases hline : c = '\n'
    · subst hline
      rw [settings_newline]
      rfl
    · rw [if_pos (decide_eq_true hline), settings_blank hblank hline]
      exact ih
  | run w t hw hp ht ih =>
    have hword : ∀ c ∈ w, isBlank c = false := by
      intro c hc
      simpa using hp c hc
    have hbehind : ∀ c ∈ t.head?, isBlank c = true := by
      intro c hc
      simpa using ht c hc
    rw [first_afterEquals_word hword hbehind, settings_word hw hword hbehind, ih,
      List.getLast?_append, Option.map_or]
    split
    · rfl
    · rfl

end Settings

/-! ## The two accounts agree -/

theorem lastPart_eq (path : List Char) : lastPart path = afterLast '/' path := by
  induction path with
  | nil => rfl
  | cons c cs ih =>
    rw [afterLast, ← ih, lastPart, lastPart, List.reverse_cons]
    split
    case isTrue hmem =>
      have hstop : cs.reverse.dropWhile (· ≠ '/') ≠ [] := by
        intro hnil
        simpa using List.dropWhile_eq_nil_iff.mp hnil '/' (List.mem_reverse.mpr hmem)
      rw [(run_append_of_ne_nil hstop [c]).1]
    case isFalse hmem =>
      have hall : ∀ d ∈ cs.reverse, decide (d ≠ '/') = true := by
        intro d hd
        refine decide_eq_true ?_
        rintro rfl
        exact hmem (List.mem_reverse.mp hd)
      rw [List.takeWhile_append_of_pos hall, List.takeWhile_cons]
      by_cases hc : c = '/'
      · simp [hc]
      · simp [hc]

theorem withoutVersion_eq (name : List Char) :
    withoutVersion name = firstRun (!·.isDigit) name := by
  rw [firstRun_eq, withoutVersion]
  simp only [Bool.not_not]

/-- Past the blanks and the settings. -/
theorem rest_pass_settings (s : Scanner) :
    ((s.pass Lexicon.blanks).pass Lexicon.settings).rest
      = afterSettings (s.rest.dropWhile isBlank) := by
  have hblanks : (s.pass Lexicon.blanks).rest = s.rest.dropWhile isBlank := by
    rw [Scanner.rest_pass rfl, Lexicon.matchRest?_blanks]
    split
    case isTrue hnil =>
      have hall := List.takeWhile_append_dropWhile (p := isBlank) (l := s.rest)
      rw [hnil, List.nil_append] at hall
      exact hall.symm
    case isFalse => rfl
  rw [Scanner.rest_pass rfl, hblanks, Lexicon.matchRest?_settings, first_afterEquals]
  rfl

/-- What the settings leave does not begin with a blank. -/
theorem dropWhile_afterSettings (cs : List Char) :
    (afterSettings (cs.dropWhile isBlank)).dropWhile isBlank
      = afterSettings (cs.dropWhile isBlank) := by
  rw [afterSettings]
  cases (settings (cs.dropWhile isBlank)).getLast? with
  | none => exact List.dropWhile_idempotent isBlank cs
  | some a => exact List.dropWhile_idempotent isBlank a.2

theorem scan_nonBlanks {s : Scanner} (h : s.rest.dropWhile isBlank = s.rest) :
    s.scan Lexicon.nonBlanks
      = if s.rest = [] then none
        else some (s.rest.takeWhile (!isBlank ·), s.upTo (s.rest.dropWhile (!isBlank ·))) := by
  have hnil : s.rest.takeWhile (!isBlank ·) = [] ↔ s.rest = [] := by
    rw [← h]
    refine takeWhile_dropWhile_eq_nil_iff ?_ s.rest
    intro c hc
    rw [hc]
    rfl
  have hbefore : s.before (s.rest.dropWhile (!isBlank ·)) = s.rest.takeWhile (!isBlank ·) :=
    Scanner.before_of_eq List.takeWhile_append_dropWhile.symm
  rw [Scanner.scan_eq rfl, Lexicon.matchRest?_nonBlanks]
  by_cases hrest : s.rest = []
  · rw [if_pos hrest, if_pos (hnil.mpr hrest)]
    rfl
  · rw [if_neg hrest, if_neg fun h => hrest (hnil.mp h), Option.map_some, hbefore]

/-- The word that follows the path to `env`. -/
theorem scan_settled (s : Scanner) :
    (((s.pass Lexicon.blanks).pass Lexicon.settings).scan Lexicon.nonBlanks).map (·.1)
      = if afterSettings (s.rest.dropWhile isBlank) = [] then none
        else some (firstRun (!isBlank ·) (afterSettings (s.rest.dropWhile isBlank))) := by
  have hrest := rest_pass_settings s
  have hstart := dropWhile_afterSettings s.rest
  rw [scan_nonBlanks (by rw [hrest, hstart]), hrest, firstRun_nonBlank hstart]
  split
  · rfl
  · rfl

theorem word?_mark (cs : List Char) :
    word? ('#' :: '!' :: cs) = namingWord? ('#' :: '!' :: cs) := by
  let line := Scanner.ofText ('#' :: '!' :: cs)
  let s := line.upTo (cs.dropWhile isBlank)
  let path := (cs.dropWhile isBlank).takeWhile (!isBlank ·)
  let t := (cs.dropWhile isBlank).dropWhile (!isBlank ·)
  have hmark : line.scan Lexicon.interpreterMark
      = some (line.before (cs.dropWhile isBlank), s) := by
    rw [Scanner.scan_eq rfl, Lexicon.matchRest?_interpreterMark]
    rfl
  have hpath : s.scan Lexicon.nonBlanks
      = if cs.dropWhile isBlank = [] then none else some (path, s.upTo t) :=
    scan_nonBlanks (List.dropWhile_idempotent isBlank cs)
  rw [word?, hmark, namingWord?, words_eq]
  show Option.bind (s.scan Lexicon.nonBlanks) _ = _
  rw [hpath]
  by_cases hnil : cs.dropWhile isBlank = []
  · rw [if_pos hnil, if_pos hnil]
    rfl
  · rw [if_neg hnil, if_neg hnil]
    show (if lastPart path = ['e', 'n', 'v'] then
        ((((s.upTo t).pass Lexicon.blanks).pass Lexicon.settings).scan Lexicon.nonBlanks).bind _
      else _) = if afterLast '/' path = ['e', 'n', 'v'] then _ else _
    rw [lastPart_eq]
    split
    · exact Option.map_eq_bind.symm.trans (scan_settled (s.upTo t))
    · rfl

theorem word?_eq (line : List Char) : word? line = namingWord? line := by
  by_cases hmark : "#!".toList <+: line
  · obtain ⟨cs, rfl⟩ := hmark
    exact word?_mark cs
  · have hscan : (Scanner.ofText line).scan Lexicon.interpreterMark = none := by
      rw [Scanner.scan_eq rfl, Lexicon.matchRest?_interpreterMark]
      exact congrArg (Option.map _) (if_neg hmark)
    rw [word?, hscan, namingWord?.eq_def]
    split
    case h_1 cs => exact absurd (List.prefix_append ['#', '!'] cs) hmark
    case h_2 => rfl

/-- What a line names as its interpreter, if it names one, is what its words say, and there
are neither blanks nor digits in it. -/
theorem ofLine?_eq_named (line : List Char) :
    ofLine? line = (named? line).map String.ofList ∧
      ∀ n ∈ named? line, ∀ c ∈ n, isBlank c = false ∧ c.isDigit = false := by
  have hagree : ofLine? line = (named? line).map String.ofList := by
    rw [ofLine?, word?_eq, named?, Option.map_map]
    refine congrArg (Option.map · _) (funext ?_)
    intro w
    rw [withoutVersion_eq]
    rfl
  refine ⟨hagree, ?_⟩
  intro n hn
  rw [Option.mem_def.mp hn] at hagree
  have hclean := (of_ofLine? hagree).2
  rw [String.toList_ofList] at hclean
  exact hclean

end Interpreter

end SourceTokens

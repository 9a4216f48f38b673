/-
# `SourceTokens.Proofs.Environment` — lines that go through `env`

A line such as `#!/usr/bin/env node -r x` leaves it to `env` to find the interpreter, which is
the word after the path as long as nothing is set before it.  What the line names is that word
only if none of its arguments looks like a setting.  The settings are not looked for before
the interpreter but anywhere in the line, and so the last argument with an equals sign in it
takes the interpreter and all arguments up to it away (`ofLine?_through_env`): the line
`#!/usr/bin/env node --x=y z` names `z`.
-/
import SourceTokens.Proofs.Words

namespace SourceTokens.Interpreter

open Direct

/-- A line that goes through `env` to an interpreter, with nothing set before it. -/
structure EnvLine where
  /-- The blanks between the mark and the path. -/
  start : List Char
  path : List Char
  /-- The blanks behind the path. -/
  gap : List Char
  /-- The interpreter. -/
  word : List Char
  /-- What follows the interpreter, from the blanks behind it on. -/
  arguments : List Char
  blank_start : ∀ c ∈ start, isBlank c = true
  not_blank_path : ∀ c ∈ path, isBlank c = false
  path_env : afterLast '/' path = ['e', 'n', 'v']
  gap_ne_nil : gap ≠ []
  blank_gap : ∀ c ∈ gap, isBlank c = true
  word_ne_nil : word ≠ []
  not_blank_word : ∀ c ∈ word, isBlank c = false
  not_mem_word : '=' ∉ word
  blank_arguments : ∀ c ∈ arguments.head?, isBlank c = true

namespace EnvLine

/-- The text of the line. -/
def chars (l : EnvLine) : List Char :=
  '#' :: '!' :: (l.start ++ (l.path ++ (l.gap ++ (l.word ++ l.arguments))))

/-- The word behind the last setting among the arguments, if there is any word; the interpreter
itself if there is no setting. -/
def chosen? (l : EnvLine) : Option (List Char) :=
  match (settings l.arguments).getLast? with
  | none => some l.word
  | some a => (words a.2).head?.map (·.1)

end EnvLine

variable {cs w t : List Char}

theorem words_blanks_append (hw : ∀ c ∈ w, isBlank c = true) (cs : List Char) :
    words (w ++ cs) = words cs := by
  induction w with
  | nil => rfl
  | cons c w ih =>
    obtain ⟨hc, hw⟩ := List.forall_mem_cons.mp hw
    exact (words_cons_blank hc _).trans (ih hw)

theorem words_dropWhile (cs : List Char) : words (cs.dropWhile isBlank) = words cs := by
  rw [words_eq cs, words_eq, List.dropWhile_idempotent isBlank cs]

/-- The first word of a text that does not begin with a blank. -/
theorem head?_words (h : cs.dropWhile isBlank = cs) :
    (words cs).head?.map (·.1) = if cs = [] then none else some (firstRun (!isBlank ·) cs) := by
  rw [words_eq, firstRun_nonBlank h, h]
  split
  · rfl
  · rfl

/-- A text in which no word with blanks behind it has an equals sign before its end sets
nothing. -/
theorem settings_eq_nil
    (h : ∀ u w t, cs = u ++ (w ++ t) → (∀ c ∈ w, isBlank c = false) → '=' ∈ w.dropLast →
      t.head?.any isBlank = false) : settings cs = [] := by
  refine List.eq_nil_iff_forall_not_mem.mpr ?_
  rintro ⟨w, t⟩ hmem
  obtain ⟨hword, hsets⟩ := List.mem_filter.mp hmem
  obtain ⟨⟨w', t'⟩, hrun, heq⟩ := List.mem_map.mp hword
  cases heq
  obtain ⟨hequals, hbehind⟩ := of_decide_eq_true hsets
  obtain ⟨-, hp, -, u, hline, -⟩ := of_mem_runs hrun
  have hwhole : cs = u ++ (w' ++ (t' ++ cs.dropWhile (· ≠ '\n'))) := by
    rw [← List.append_assoc w', ← List.append_assoc u, ← hline, List.takeWhile_append_dropWhile]
  have hclean : ∀ c ∈ w', isBlank c = false := by
    intro c hc
    simpa using hp c hc
  rw [h u w' _ hwhole hclean hequals] at hbehind
  cases hbehind

namespace EnvLine

theorem words_arguments (l : EnvLine) :
    words (l.word ++ l.arguments) = (l.word, l.arguments) :: words l.arguments :=
  words_append l.word_ne_nil l.not_blank_word l.blank_arguments

/-- The line names the first word that the settings leave of the interpreter and its
arguments. -/
theorem namingWord?_chars (l : EnvLine) :
    namingWord? l.chars = (words (afterSettings (l.word ++ l.arguments))).head?.map (·.1) := by
  have hpath : l.path ≠ [] := by
    intro hnil
    have henv := l.path_env
    rw [hnil] at henv
    cases henv
  have hgap : ∀ c ∈ (l.gap ++ (l.word ++ l.arguments)).head?, isBlank c = true := by
    obtain ⟨c, gap, hgap⟩ := List.exists_cons_of_ne_nil l.gap_ne_nil
    intro d hd
    rw [hgap] at hd
    cases hd
    exact l.blank_gap c (hgap ▸ List.mem_cons_self)
  have hword : (l.word ++ l.arguments).dropWhile isBlank = l.word ++ l.arguments := by
    obtain ⟨c, word, hword⟩ := List.exists_cons_of_ne_nil l.word_ne_nil
    have hc : isBlank c ≠ true := by
      rw [l.not_blank_word c (hword ▸ List.mem_cons_self)]
      exact Bool.false_ne_true
    rw [hword, List.cons_append, List.dropWhile_cons_of_neg hc]
  have hleft : (l.gap ++ (l.word ++ l.arguments)).dropWhile isBlank = l.word ++ l.arguments := by
    rw [List.dropWhile_append_of_pos l.blank_gap, hword]
  have hstart := dropWhile_afterSettings (l.word ++ l.arguments)
  rw [hword] at hstart
  rw [chars, namingWord?, words_blanks_append l.blank_start,
    words_append hpath l.not_blank_path hgap]
  refine (if_pos l.path_env).trans ?_
  rw [hleft, head?_words hstart]

/-- The interpreter is no setting itself. -/
theorem settings_arguments (l : EnvLine) :
    settings (l.word ++ l.arguments) = settings l.arguments := by
  have hnot : ¬('=' ∈ l.word.dropLast ∧ l.arguments ≠ []) := by
    intro h
    exact l.not_mem_word ((List.dropLast_sublist _).mem h.1)
  rw [settings_word l.word_ne_nil l.not_blank_word l.blank_arguments, if_neg hnot, List.nil_append]

theorem namingWord?_eq_chosen (l : EnvLine) : namingWord? l.chars = l.chosen? := by
  rw [namingWord?_chars, afterSettings, settings_arguments, chosen?]
  cases (settings l.arguments).getLast? with
  | none => exact congrArg (·.head?.map (·.1)) l.words_arguments
  | some a => exact congrArg (·.head?.map (·.1)) (words_dropWhile a.2)

end EnvLine

/-- A line that goes through `env` names the interpreter behind the path, unless there are
settings among the arguments; it then names the word behind the last of them, if there is
any. -/
theorem ofLine?_through_env (l : EnvLine) :
    ofLine? l.chars = l.chosen?.map (fun w => String.ofList (withoutVersion w)) ∧
    ((∀ u w t, l.arguments = u ++ (w ++ t) → (∀ c ∈ w, isBlank c = false) → '=' ∈ w.dropLast →
        t.head?.any isBlank = false) →
      ofLine? l.chars = some (String.ofList (withoutVersion l.word))) := by
  have hname : ofLine? l.chars
      = l.chosen?.map fun w => String.ofList (withoutVersion w) := by
    rw [ofLine?, word?_eq, l.namingWord?_eq_chosen]
  refine ⟨hname, ?_⟩
  intro hnone
  rw [hname, EnvLine.chosen?, settings_eq_nil hnone]
  rfl

/-- The line that runs `node` with the given arguments. -/
def EnvLine.node (arguments : List Char) (h : ∀ c ∈ arguments.head?, isBlank c = true) :
    EnvLine where
  start := []
  path := ['/', 'u', 's', 'r', '/', 'b', 'i', 'n', '/', 'e', 'n', 'v']
  gap := [' ']
  word := ['n', 'o', 'd', 'e']
  arguments := arguments
  blank_start := nofun
  not_blank_path := by simp [isBlank]
  path_env := by decide
  gap_ne_nil := List.cons_ne_nil _ _
  blank_gap := by simp [isBlank]
  word_ne_nil := List.cons_ne_nil _ _
  not_blank_word := by simp [isBlank]
  not_mem_word := by decide
  blank_arguments := h

/-- Arguments without an equals sign do not matter. -/
theorem ofLine?_through_env_node :
    ofLine? "#!/usr/bin/env node -r x".toList = some "node" := by
  let l := EnvLine.node [' ', '-', 'r', ' ', 'x'] (by simp [isBlank])
  refine (ofLine?_through_env l).2 ?_
  intro u w t hargs _ hequals
  have hmem : '=' ∈ l.arguments := by
    rw [hargs]
    exact List.mem_append_right u (List.mem_append_left t ((List.dropLast_sublist w).mem hequals))
  exact absurd hmem (by decide)

/-- An argument with an equals sign in it takes the interpreter away. -/
theorem exists_envLine_ne :
    ∃ l : EnvLine, l.chars = "#!/usr/bin/env node --x=y z".toList ∧ ofLine? l.chars = some "z" ∧
      ofLine? l.chars ≠ some (String.ofList (withoutVersion l.word)) := by
  refine ⟨.node [' ', '-', '-', 'x', '=', 'y', ' ', 'z'] (by simp [isBlank]), rfl, ?_, ?_⟩
  · decide +kernel
  · decide +kernel

end SourceTokens.Interpreter

/-
# `SourceTokens.Proofs.TextOutput` — the text formats can be read back

What the two text formats print is a list of lines, and nothing in them is escaped.  It
can be read back all the same, because of what tokens look like.  No token holds a
newline, so the lines can be told apart; none holds a tab, so a count can be told from
its text; and none holds a space, while the line that names a file always does
(`mem_headerLine`).  So the lines before which another file begins are known
(`sectionsOf_sectionLines`), whatever the names of the files are, as long as no name
runs over two lines.
-/
import Mathlib
import SourceTokens.Proofs.Counts
import SourceTokens.Proofs.Lines

namespace SourceTokens

open Direct

/-! ## Texts of tokens -/

/-- No token found in a text holds a blank. -/
theorem Source.not_isBlank_of_mem_tokens {text : String} {token : Token}
    (h : token ∈ tokens text) : ∀ c ∈ token.text.toList, isBlank c = false := by
  obtain ⟨rule, hemits⟩ := (mem_tokens_iff text token).mp h
  exact (inAlphabet_of_emits hemits).not_isBlank

/-- The tokens of the file are those of some text. -/
def FileTokens.Found (f : FileTokens) : Prop :=
  ∃ text, f.tokens = (Source.tokens text).map Token.text

theorem FileTokens.Found.not_mem {f : FileTokens} (h : f.Found) {c : Char}
    (hc : isBlank c = true) : ∀ t ∈ f.tokens, c ∉ t.toList := by
  obtain ⟨text, hf⟩ := h
  rw [hf, List.forall_mem_map]
  intro token htoken hmem
  rw [Source.not_isBlank_of_mem_tokens htoken c hmem] at hc
  cases hc

namespace Output

variable {n : Nat} {t file : String} {ls ts : List String} {files : List FileTokens}
  {format : Format} {body : List String → List String}

/-! ## Lines -/

/-- The texts that newlines end. -/
def linesOf (out : String) : List String :=
  ((out.split '\n').toList.map String.Slice.copy).dropLast

theorem splitOn_tokenLines (h : ∀ l ∈ ls, '\n' ∉ l.toList) :
    (tokenLines ls).toList.splitOn '\n' = ls.map String.toList ++ [[]] := by
  induction ls with
  | nil => rfl
  | cons l ls ih =>
    obtain ⟨hl, hls⟩ := List.forall_mem_cons.mp h
    rw [toList_tokenLines_cons, List.splitOn_append_cons_self, List.splitOn_eq_singleton hl,
      ih hls]
    rfl

/-- Lines that have been written one after the other are read back. -/
theorem linesOf_tokenLines (h : ∀ l ∈ ls, '\n' ∉ l.toList) : linesOf (tokenLines ls) = ls := by
  have hcopy : (ls.map String.toList).map String.ofList = ls := by
    simp [Function.comp_def]
  rw [linesOf, String.toList_split_char, splitOn_tokenLines h, List.map_append, hcopy,
    List.map_singleton, List.dropLast_concat]

theorem tokenLines_append (ls ls' : List String) :
    tokenLines (ls ++ ls') = tokenLines ls ++ tokenLines ls' := by
  rw [tokenLines, List.map_append, String.join_append]
  rfl

/-! ## Counts -/

/-- The line of a text with its count. -/
def countLine (c : String × Nat) : String := toString c.2 ++ "\t" ++ c.1

/-- The text and its count that a line gives. -/
def readCount? (line : String) : Option (String × Nat) :=
  match (line.split '\t').toList.map String.Slice.copy with
  | [n, t] => n.toNat?.map (t, ·)
  | _ => none

theorem countLines_eq (ts : List String) :
    countLines ts = tokenLines ((Counts.ofList ts).map countLine) := by
  rw [countLines, tokenLines, List.map_map]
  rfl

theorem isDigit_of_mem_toString {c : Char} (h : c ∈ (toString n).toList) : c.isDigit = true := by
  rw [Nat.toString_eq_repr, Nat.toList_repr] at h
  exact Nat.isDigit_of_mem_toDigits (by decide) (by decide) h

theorem toList_countLine (c : String × Nat) :
    (countLine c).toList = (toString c.2).toList ++ '\t' :: c.1.toList := by
  simp [countLine]

theorem not_mem_countLine {c : Char} (ht : c ∉ t.toList) (hdigit : c.isDigit = false)
    (htab : c ≠ '\t') : c ∉ (countLine (t, n)).toList := by
  rw [toList_countLine, List.mem_append, List.mem_cons]
  rintro (hmem | hmem | hmem)
  · rw [isDigit_of_mem_toString hmem] at hdigit
    cases hdigit
  · exact htab hmem
  · exact ht hmem

/-- A text without a tab is read back with its count. -/
theorem readCount?_countLine (ht : '\t' ∉ t.toList) :
    readCount? (countLine (t, n)) = some (t, n) := by
  have hn : '\t' ∉ (toString n).toList := fun hmem => by
    simpa using isDigit_of_mem_toString hmem
  have hsplit : ((countLine (t, n)).split '\t').toList.map String.Slice.copy = [toString n, t] := by
    rw [String.toList_split_char, toList_countLine, List.splitOn_append_cons_self,
      List.splitOn_eq_singleton hn, List.splitOn_eq_singleton ht]
    simp only [List.cons_append, List.nil_append, List.map_cons, List.map_nil,
      String.ofList_toList]
  rw [readCount?, hsplit]
  simp [Nat.toString_eq_repr, Nat.toNat?_repr]

/-! ## Sections -/

/-- The line that names a file, without its newline. -/
def headerLine (file : String) : String := "==> " ++ file ++ " <=="

theorem mem_headerLine (file : String) : ' ' ∈ (headerLine file).toList := by
  simp [headerLine]

theorem headerLine_injective {file file' : String} (h : headerLine file = headerLine file') :
    file = file' := by
  simpa [headerLine] using h

/-- Lines cut before every line with a space: those before the first such line, and
each such line with those that follow it. -/
def sectionsOf : List String → List String × List (String × List String)
  | [] => ([], [])
  | l :: ls =>
    let (body, rest) := sectionsOf ls
    if ' ' ∈ l.toList then ([], (l, body) :: rest) else (l :: body, rest)

theorem sectionsOf_append (h : ∀ l ∈ ls, ' ' ∉ l.toList) (ls' : List String) :
    sectionsOf (ls ++ ls') = (ls ++ (sectionsOf ls').1, (sectionsOf ls').2) := by
  induction ls with
  | nil => rfl
  | cons l ls ih =>
    obtain ⟨hl, hls⟩ := List.forall_mem_cons.mp h
    simp only [List.cons_append, sectionsOf, if_neg hl, ih hls]

/-- The lines of several files whose bodies are made of the lines `body`. -/
def sectionLines (body : List String → List String) (files : List FileTokens) : List String :=
  files.flatMap fun f => headerLine f.file :: body f.tokens

/-- The files are told apart by the lines that name them. -/
theorem sectionsOf_sectionLines {body : List String → List String}
    (h : ∀ f ∈ files, ∀ l ∈ body f.tokens, ' ' ∉ l.toList) :
    sectionsOf (sectionLines body files)
      = ([], files.map fun f => (headerLine f.file, body f.tokens)) := by
  induction files with
  | nil => rfl
  | cons f files ih =>
    obtain ⟨hf, hfiles⟩ := List.forall_mem_cons.mp h
    have hrest : sectionsOf (body f.tokens ++ sectionLines body files)
        = (body f.tokens, files.map fun f => (headerLine f.file, body f.tokens)) := by
      rw [sectionsOf_append hf, ih hfiles, List.append_nil]
    show sectionsOf (headerLine f.file :: (body f.tokens ++ sectionLines body files)) = _
    simp only [sectionsOf, if_pos (mem_headerLine f.file), hrest, List.map_cons]

theorem sections_eq {body : List String → List String} (h : 1 < files.length) :
    sections (fun ts => tokenLines (body ts)) files = tokenLines (sectionLines body files) := by
  have heach : ∀ files : List FileTokens,
      String.join (files.map fun f => header f.file ++ tokenLines (body f.tokens))
        = tokenLines (sectionLines body files) := by
    intro files
    induction files with
    | nil => rfl
    | cons f files ih =>
      have hline : header f.file ++ tokenLines (body f.tokens)
          = tokenLines (headerLine f.file :: body f.tokens) := by
        simp [header, headerLine, tokenLines, String.join_cons, String.append_assoc]
      rw [List.map_cons, String.join_cons, ih, hline, ← tokenLines_append]
      rfl
  rw [sections]
  simp only [h, if_true]
  exact heach files

theorem sections_singleton (body : List String → String) (f : FileTokens) :
    sections body [f] = body f.tokens := by
  simp [sections, String.join_cons, String.join_nil]

/-- What is printed of several files is read back, with each file after the line that
names it. -/
theorem sectionsOf_linesOf_sections (body : List String → List String) (hfiles : 1 < files.length)
    (hname : ∀ f ∈ files, '\n' ∉ f.file.toList)
    (hbody : ∀ f ∈ files, ∀ l ∈ body f.tokens, '\n' ∉ l.toList ∧ ' ' ∉ l.toList) :
    sectionsOf (linesOf (sections (fun ts => tokenLines (body ts)) files))
      = ([], files.map fun f => (headerLine f.file, body f.tokens)) := by
  have hnewline : ∀ l ∈ sectionLines body files, '\n' ∉ l.toList := by
    intro l hl
    obtain ⟨f, hf, hl⟩ := List.mem_flatMap.mp hl
    rcases List.mem_cons.mp hl with rfl | hl
    · simpa [headerLine] using hname f hf
    · exact (hbody f hf l hl).1
  rw [sections_eq hfiles, linesOf_tokenLines hnewline]
  exact sectionsOf_sectionLines fun f hf l hl => (hbody f hf l hl).2

/-! ## The two formats -/

/-- The lines of the counts of tokens. -/
def countLinesOf (ts : List String) : List String := (Counts.ofList ts).map countLine

theorem mem_of_mem_ofList {c : String × Nat} (h : c ∈ Counts.ofList ts) : c.1 ∈ ts := by
  rw [Counts.ofList_eq] at h
  obtain ⟨t, ht, rfl⟩ := List.mem_map.mp h
  exact List.mem_eraseDups.mp ht

/-- What no token holds, and is neither a digit nor a tab, no line of their counts
holds. -/
theorem not_mem_countLinesOf {c : Char} (h : ∀ t ∈ ts, c ∉ t.toList) (hdigit : c.isDigit = false)
    (htab : c ≠ '\t') : ∀ l ∈ countLinesOf ts, c ∉ l.toList := by
  refine List.forall_mem_map.mpr ?_
  intro count hcount
  exact not_mem_countLine (h count.1 (mem_of_mem_ofList hcount)) hdigit htab

theorem map_readCount?_countLinesOf (h : ∀ t ∈ ts, '\t' ∉ t.toList) :
    (countLinesOf ts).map readCount? = (Counts.ofList ts).map some := by
  rw [countLinesOf, List.map_map]
  refine List.map_congr_left ?_
  intro count hcount
  exact readCount?_countLine (h count.1 (mem_of_mem_ofList hcount))

theorem render_counts (files : List FileTokens) :
    render .counts files = sections (fun ts => tokenLines (countLinesOf ts)) files :=
  congrArg (sections · files) (funext countLines_eq)

/-- The files hold tokens, and their names each fit on a line. -/
def Readable (files : List FileTokens) : Prop :=
  ∀ f ∈ files, f.Found ∧ '\n' ∉ f.file.toList

/-- The lines that a format prints of the tokens of a file, if it prints lines. -/
def body? : Format → Option (List String → List String)
  | .lines => some id
  | .counts => some countLinesOf
  | .json => none

theorem render_eq_sections (h : body? format = some body) (files : List FileTokens) :
    render format files = sections (fun ts => tokenLines (body ts)) files := by
  cases format with
  | lines =>
    obtain rfl := Option.some.inj h
    rfl
  | counts =>
    obtain rfl := Option.some.inj h
    exact render_counts files
  | json => cases h

/-- No line of a file runs over two, or looks like one that names a file. -/
theorem not_mem_body (h : body? format = some body) {f : FileTokens} (hf : f.Found) :
    ∀ l ∈ body f.tokens, '\n' ∉ l.toList ∧ ' ' ∉ l.toList := by
  intro l hl
  cases format with
  | lines =>
    obtain rfl := Option.some.inj h
    exact ⟨hf.not_mem rfl l hl, hf.not_mem rfl l hl⟩
  | counts =>
    obtain rfl := Option.some.inj h
    exact ⟨not_mem_countLinesOf (hf.not_mem rfl) rfl (by decide) l hl,
      not_mem_countLinesOf (hf.not_mem rfl) rfl (by decide) l hl⟩
  | json => cases h

theorem sectionsOf_render (hbody : body? format = some body) (hfiles : 1 < files.length)
    (h : Readable files) :
    sectionsOf (linesOf (render format files))
      = ([], files.map fun f => (headerLine f.file, body f.tokens)) := by
  rw [render_eq_sections hbody]
  exact sectionsOf_linesOf_sections body hfiles (fun f hf => (h f hf).2)
    fun f hf => not_mem_body hbody (h f hf).1

theorem sectionsOf_render_lines (hfiles : 1 < files.length) (h : Readable files) :
    sectionsOf (linesOf (render .lines files))
      = ([], files.map fun f => (headerLine f.file, f.tokens)) := by
  have hbody : body? .lines = some id := rfl
  exact sectionsOf_render hbody hfiles h

theorem sectionsOf_render_counts (hfiles : 1 < files.length) (h : Readable files) :
    sectionsOf (linesOf (render .counts files))
      = ([], files.map fun f => (headerLine f.file, countLinesOf f.tokens)) := by
  have hbody : body? .counts = some countLinesOf := rfl
  exact sectionsOf_render hbody hfiles h

/-- The counts of several files are read off the lines that follow their names. -/
theorem map_readCount?_sectionsOf (hfiles : 1 < files.length) (h : Readable files) :
    (sectionsOf (linesOf (render .counts files))).2.map (Prod.map id (List.map readCount?))
      = files.map fun f => (headerLine f.file, (Counts.ofList f.tokens).map some) := by
  rw [sectionsOf_render_counts hfiles h, List.map_map]
  refine List.map_congr_left ?_
  intro f hf
  exact congrArg (headerLine f.file, ·) (map_readCount?_countLinesOf ((h f hf).1.not_mem rfl))

/-- What is printed of one file is its tokens line by line, or its distinct tokens in
the order in which they first occur, each with the number of its occurrences.  What is
printed of several files, whose names each fit on a line, tells their names and their
tokens, or the counts of these, apart from those of any other files. -/
theorem text_unambiguous :
    (∀ f : FileTokens, f.Found →
      linesOf (render .lines [f]) = f.tokens ∧
      (linesOf (render .counts [f])).map readCount?
        = (f.tokens.eraseDups.map fun t => (t, f.tokens.count t)).map some) ∧
    ∀ files files' : List FileTokens, 2 ≤ files.length → 2 ≤ files'.length →
      Readable files → Readable files' →
      (render .lines files = render .lines files' → files = files') ∧
      (render .counts files = render .counts files' →
        files.map (fun f => (f.file, f.tokens.eraseDups.map fun t => (t, f.tokens.count t)))
          = files'.map fun f =>
            (f.file, f.tokens.eraseDups.map fun t => (t, f.tokens.count t))) := by
  constructor
  · intro f hf
    have hlines : ∀ l ∈ countLinesOf f.tokens, '\n' ∉ l.toList :=
      not_mem_countLinesOf (hf.not_mem rfl) rfl (by decide)
    constructor
    · show linesOf (sections tokenLines [f]) = f.tokens
      rw [sections_singleton, linesOf_tokenLines (hf.not_mem rfl)]
    · rw [render_counts, sections_singleton, linesOf_tokenLines hlines,
        map_readCount?_countLinesOf (hf.not_mem rfl), Counts.ofList_eq]
  · intro files files' hlength hlength' hfiles hfiles'
    constructor
    · intro h
      have hsections := sectionsOf_render_lines hlength hfiles
      rw [h, sectionsOf_render_lines hlength' hfiles'] at hsections
      refine List.map_injective_iff.mpr ?_ (congrArg Prod.snd hsections).symm
      rintro ⟨file, ts⟩ ⟨file', ts'⟩ heq
      obtain ⟨hfile, hts⟩ := Prod.mk.inj heq
      obtain rfl : file = file' := headerLine_injective hfile
      obtain rfl : ts = ts' := hts
      rfl
    · intro h
      have hcounts := map_readCount?_sectionsOf hlength hfiles
      rw [h, map_readCount?_sectionsOf hlength' hfiles'] at hcounts
      have hinjective : Function.Injective
          (Prod.map headerLine (List.map (some : String × Nat → _))) :=
        Function.Injective.prodMap (fun _ _ => headerLine_injective)
          (List.map_injective_iff.mpr (Option.some_injective _))
      refine List.map_injective_iff.mpr hinjective ?_
      simp only [← Counts.ofList_eq, List.map_map]
      exact hcounts.symm

theorem text_unambiguous_swapped :
    let f : FileTokens := ⟨"a", (Source.tokens "x(x)").map Token.text⟩
    let g : FileTokens := ⟨"==> a <==", (Source.tokens "x(x)").map Token.text⟩
    (f.Found ∧ linesOf (render .lines [f]) = f.tokens) ∧
    (Readable [f, g] ∧ Readable [g, f]) ∧
      render .lines [f, g] ≠ render .lines [g, f] ∧
      render .counts [f, g] ≠ render .counts [g, f] := by
  intro f g
  have hf : f.Found := ⟨"x(x)", rfl⟩
  have hg : g.Found := ⟨"x(x)", rfl⟩
  have hfg : Readable [f, g] :=
    List.forall_mem_cons.mpr ⟨⟨hf, by decide⟩, List.forall_mem_singleton.mpr ⟨hg, by decide⟩⟩
  have hgf : Readable [g, f] :=
    List.forall_mem_cons.mpr ⟨⟨hg, by decide⟩, List.forall_mem_singleton.mpr ⟨hf, by decide⟩⟩
  have hapart := text_unambiguous.2 [f, g] [g, f] (Nat.le_refl 2) (Nat.le_refl 2) hfg hgf
  refine ⟨⟨hf, (text_unambiguous.1 f hf).1⟩, ⟨hfg, hgf⟩, ?_, ?_⟩
  · intro h
    have hfile : f.file = g.file := congrArg FileTokens.file (List.cons.inj (hapart.1 h)).1
    exact absurd hfile (by decide)
  · intro h
    have hfile : f.file = g.file := congrArg Prod.fst (List.cons.inj (hapart.2 h)).1
    exact absurd hfile (by decide)

end Output

end SourceTokens

/-
# `SourceTokens.Proofs.Attribution` — which file a printed line is of

In the text formats the lines of a file are meant to come after a line that names it
whenever a run is given several files.  Whether they do is decided by the number of the
files that could be loaded, and not by the number of those that were given.  Unless it is
one, every file has its line and what is printed can be taken apart again
(`Run.program_headers`).  If it is one, the lines of that file are all there is: nothing
tells which of the arguments they belong to, and runs that load different files print the
same (`Run.not_headed_of_one`).
-/
import SourceTokens.Files.Tree
import SourceTokens.Proofs.Program
import SourceTokens.Proofs.TextOutput

namespace SourceTokens

namespace Output

variable {body : List String → List String} {files : List FileTokens}

/-- Every file comes after the line that names it, unless there is just one. -/
theorem sections_eq_iff :
    sections (fun ts => tokenLines (body ts)) files = tokenLines (sectionLines body files)
      ↔ files.length ≠ 1 := by
  constructor
  · intro h hone
    obtain ⟨f, rfl⟩ := List.length_eq_one_iff.mp hone
    have hlength := congrArg String.length h
    rw [sections_singleton] at hlength
    simp [sectionLines, tokenLines, String.join_cons] at hlength
  · intro h
    by_cases hseveral : 1 < files.length
    · exact sections_eq hseveral
    · obtain rfl : files = [] := List.eq_nil_of_length_eq_zero (by omega)
      rfl

end Output

namespace Run

open Output

variable {fs : FileSystem} {limit : Option UInt64} {paths args : List String} {o : Options}
  {config : Config} {body : List String → List String}

/-- The files that can be loaded, each with the texts of its tokens. -/
def loaded (fs : FileSystem) (limit : Option UInt64) (paths : List String) : List FileTokens :=
  paths.filterMap fun path => (SourceFile.load fs path limit).toOption.map fun source =>
    ⟨path, (Source.tokens source.text).map Token.text⟩

theorem loaded_eq (fs : FileSystem) (limit : Option UInt64) (paths : List String) :
    loaded fs limit paths = paths.filterMap (printed? fs limit) := by
  refine List.filterMap_congr ?_
  intro path _
  rw [toOption_load, printed?, text?]
  split
  · cases (fs.read path).toOption <;> simp [text_ofOctets]
  · rfl

theorem readable_loaded (h : ∀ path ∈ paths, '\n' ∉ path.toList) :
    Readable (loaded fs limit paths) := by
  intro f hf
  obtain ⟨path, hpath, hload⟩ := List.mem_filterMap.mp hf
  obtain ⟨source, -, rfl⟩ := Option.map_eq_some_iff.mp hload
  exact ⟨⟨source.text, rfl⟩, h path hpath⟩

/-- In a text format a run prints the files that can be loaded, whatever the others are. -/
theorem exists_stdout_eq_sections (asked : Option Verbosity)
    (hargs : CommandLine.read args = .ok (.run o)) (hconfig : settings fs o = .ok config)
    (hbody : body? config.outputFormat = some body) :
    ∃ r, program fs asked args = .ran r ∧ r.stdout
      = sections (fun ts => tokenLines (body ts)) (loaded fs config.maxFileSize o.files) := by
  refine ⟨_, program_of_settings asked hargs hconfig, ?_⟩
  rw [stdout_files, ← loaded_eq, render_eq_sections hbody]

/-- What a run prints in a text format.  If the files that can be loaded are none, or more
than one, each has its lines after the line that names it, and if no name runs over two
lines, it can be told of each line which file it is of.  If just one can be loaded, its
lines are printed by themselves, and not after the line that names it, however many files
the run is given. -/
theorem program_headers (fs : FileSystem) (asked : Option Verbosity) (args : List String)
    (o : Options) (config : Config) (body : List String → List String)
    (hargs : CommandLine.read args = .ok (.run o)) (hconfig : settings fs o = .ok config)
    (hbody : body? config.outputFormat = some body) :
    ∃ r, program fs asked args = .ran r ∧
      ((loaded fs config.maxFileSize o.files).length ≠ 1 →
        r.stdout = tokenLines (sectionLines body (loaded fs config.maxFileSize o.files)) ∧
        ((∀ path ∈ o.files, '\n' ∉ path.toList) →
          sectionsOf (linesOf r.stdout) = ([], (loaded fs config.maxFileSize o.files).map
            fun f => (headerLine f.file, body f.tokens)))) ∧
      ∀ f, loaded fs config.maxFileSize o.files = [f] →
        r.stdout = tokenLines (body f.tokens) ∧
        r.stdout ≠ tokenLines (sectionLines body [f]) := by
  obtain ⟨r, hran, hstdout⟩ := exists_stdout_eq_sections asked hargs hconfig hbody
  refine ⟨r, hran, ?headed, ?one⟩
  case headed =>
    intro hlength
    have hheaded := hstdout.trans (sections_eq_iff.mpr hlength)
    refine ⟨hheaded, ?_⟩
    intro hnames
    by_cases hseveral : 1 < (loaded fs config.maxFileSize o.files).length
    case pos =>
      rw [hstdout, ← render_eq_sections hbody]
      exact sectionsOf_render hbody hseveral (readable_loaded hnames)
    case neg =>
      have hnone : loaded fs config.maxFileSize o.files = [] :=
        List.eq_nil_of_length_eq_zero (by omega)
      rw [hheaded, hnone]
      show sectionsOf (linesOf (tokenLines [])) = _
      rw [linesOf_tokenLines (by simp)]
      rfl
  case one =>
    intro f hf
    rw [hstdout, hf]
    exact ⟨sections_singleton _ f, fun h => sections_eq_iff.mp h rfl⟩

theorem settings_of_absent (hconfig : o.config = none)
    (hfile : fs.present Config.defaultFile = false) : settings fs o = .ok o.toConfig := by
  have hnone : configFile? fs o = none := by
    rw [configFile?, hconfig, hfile]
    rfl
  rw [settings_eq_ok_iff, hnone]
  exact ⟨.unset, rfl, Config.unset_merge _⟩

/-- Files with these names, of one character each, and nothing else. -/
def filesNamed (names : List String) : FileSystem :=
  (names.foldl (fun t name => t.addFile name [0x78]) FileTree.empty).toFileSystem

/-- Of three arguments two name files, or one does. -/
theorem program_headers_missing :
    let o : Options := ⟨["a", "b", "c"], none, false, none, none⟩
    CommandLine.read o.files = .ok (.run o) ∧
      (∃ r, program (filesNamed ["a", "c"]) none o.files = .ran r ∧
        r.stdout = "==> a <==\nx\n==> c <==\nx\n" ∧
        sectionsOf (linesOf r.stdout) = ([], [("==> a <==", ["x"]), ("==> c <==", ["x"])])) ∧
      ∃ r, program (filesNamed ["c"]) none o.files = .ran r ∧ r.stdout = "x\n" := by
  intro o
  have hargs : CommandLine.read o.files = .ok (.run o) := by decide +kernel
  refine ⟨hargs, ?two, ?one⟩
  case two =>
    have hloaded : loaded (filesNamed ["a", "c"]) none o.files
        = [⟨"a", ["x"]⟩, ⟨"c", ["x"]⟩] := by decide +kernel
    have hconfig : settings (filesNamed ["a", "c"]) o = .ok o.toConfig :=
      settings_of_absent rfl (by decide +kernel)
    obtain ⟨r, hran, hheaded, -⟩ := program_headers _ none _ o _ id hargs hconfig rfl
    rw [show o.toConfig.maxFileSize = none from rfl, hloaded] at hheaded
    obtain ⟨hstdout, hsections⟩ := hheaded (by decide)
    exact ⟨r, hran, hstdout.trans (by decide), hsections (by decide)⟩
  case one =>
    have hloaded : loaded (filesNamed ["c"]) none o.files = [⟨"c", ["x"]⟩] := by decide +kernel
    have hconfig : settings (filesNamed ["c"]) o = .ok o.toConfig :=
      settings_of_absent rfl (by decide +kernel)
    obtain ⟨r, hran, -, hone⟩ := program_headers _ none _ o _ id hargs hconfig rfl
    exact ⟨r, hran, (hone _ hloaded).1.trans (by decide)⟩

/-- Of two arguments one names a file.  Its line is not printed, and which of them it is
makes no difference to what is printed. -/
theorem not_headed_of_one :
    (¬ ∀ (fs : FileSystem) (asked : Option Verbosity) (args : List String) (o : Options)
        (config : Config) (body : List String → List String),
      CommandLine.read args = .ok (.run o) → settings fs o = .ok config →
      body? config.outputFormat = some body → 2 ≤ o.files.length →
      ∃ r, program fs asked args = .ran r ∧
        ∀ f ∈ loaded fs config.maxFileSize o.files, headerLine f.file ∈ linesOf r.stdout) ∧
    ∃ r r', program (filesNamed ["a"]) none ["a", "b"] = .ran r ∧
      program (filesNamed ["b"]) none ["a", "b"] = .ran r' ∧ r.stdout = r'.stdout ∧
      loaded (filesNamed ["a"]) none ["a", "b"] ≠ loaded (filesNamed ["b"]) none ["a", "b"] := by
  let o : Options := ⟨["a", "b"], none, false, none, none⟩
  have hargs : CommandLine.read o.files = .ok (.run o) := by decide +kernel
  have hbody : body? o.toConfig.outputFormat = some id := rfl
  have ha : loaded (filesNamed ["a"]) none o.files = [⟨"a", ["x"]⟩] := by decide +kernel
  have hb : loaded (filesNamed ["b"]) none o.files = [⟨"b", ["x"]⟩] := by decide +kernel
  have hconfig : settings (filesNamed ["a"]) o = .ok o.toConfig :=
    settings_of_absent rfl (by decide +kernel)
  have hconfig' : settings (filesNamed ["b"]) o = .ok o.toConfig :=
    settings_of_absent rfl (by decide +kernel)
  have hlimit : o.toConfig.maxFileSize = none := rfl
  obtain ⟨r, hr, hstdout⟩ := exists_stdout_eq_sections none hargs hconfig hbody
  obtain ⟨r', hr', hstdout'⟩ := exists_stdout_eq_sections none hargs hconfig' hbody
  rw [hlimit, ha, sections_singleton] at hstdout
  rw [hlimit, hb, sections_singleton] at hstdout'
  refine ⟨?unheaded, r, r', hr, hr', hstdout.trans hstdout'.symm, ?apart⟩
  case unheaded =>
    intro hall
    obtain ⟨r₁, hr₁, hheaders⟩ :=
      hall _ none o.files o o.toConfig id hargs hconfig hbody (Nat.le_refl 2)
    obtain rfl : r = r₁ := Outcome.ran.inj (hr.symm.trans hr₁)
    rw [hlimit, ha, List.forall_mem_singleton, hstdout, linesOf_tokenLines (by decide)] at hheaders
    exact absurd hheaders (by decide)
  case apart =>
    show loaded (filesNamed ["a"]) none o.files ≠ loaded (filesNamed ["b"]) none o.files
    rw [ha, hb]
    decide

end Run

end SourceTokens

/-
# `SourceTokens.Proofs.Program` — what a run does, file by file

A run deals with every file by itself.  Whether a file can be loaded, and what text it
then holds, is said once, of a path and of nothing else (`Run.text?`); what is printed,
what is logged and how the run ends are put together from that, path by path and in the
order of the arguments.  A file that cannot be loaded is left out of what is printed,
and is an error in the log (`Run.errors_log`).

How much is logged, and whether times are, decides which events are shown and nothing
else.
-/
import Mathlib.Data.List.Basic
import SourceTokens.Proofs.Arguments
import SourceTokens.Proofs.JsonOutput
import SourceTokens.Run

namespace SourceTokens

/-! ## Decoding -/

theorem mapM_id_eq_some_iff {α : Type} {us : List (Option α)} {as : List α} :
    us.mapM id = some as ↔ us = as.map some := by
  induction us generalizing as with
  | nil => cases as <;> simp
  | cons u us ih =>
    cases u with
    | none => cases as <;> simp
    | some a => cases as <;> simp [Option.bind_eq_some_iff, ih, and_comm]

/-- A text that is well formed is the one that its octets give in any case. -/
theorem decodeLenient_of_decode? {octets : List UInt8} {text : String}
    (h : Text.Utf8.decode? octets = some text) : Text.Utf8.decodeLenient octets = text := by
  obtain ⟨cs, hcs, rfl⟩ := Option.map_eq_some_iff.mp h
  rw [Text.Utf8.decodeLenient, mapM_id_eq_some_iff.mp hcs, List.map_map]
  simp [Function.comp_def]

theorem text_ofOctets (path : String) (octets : List UInt8) :
    (SourceFile.ofOctets path octets).text = Text.Utf8.decodeLenient octets := by
  rw [SourceFile.ofOctets]
  split
  case h_1 text h => exact (decodeLenient_of_decode? h).symm
  case h_2 => rfl

theorem path_ofOctets (path : String) (octets : List UInt8) :
    (SourceFile.ofOctets path octets).path = path := by
  rw [SourceFile.ofOctets]
  split <;> rfl

namespace Run

variable {fs : FileSystem} {limit : Option UInt64} {path : String} {o : Options}
  {config : Config} {paths : List String}

/-! ## One file -/

/-- The text of a file that can be read and whose size, if there is a limit, is known
and not over it. -/
def text? (fs : FileSystem) (limit : Option UInt64) (path : String) : Option String :=
  if limit.all fun l => (fs.size path).toOption.any (· ≤ l.toNat) then
    (fs.read path).toOption.map Text.Utf8.decodeLenient
  else none

theorem toOption_checkSize (fs : FileSystem) (path : String) (l : UInt64) :
    (SourceFile.checkSize fs path l).toOption
      = if (fs.size path).toOption.any (· ≤ l.toNat) then some () else none := by
  rw [SourceFile.checkSize, toOption_bind, toOption_mapError]
  cases fs.size path with
  | error cause => rfl
  | ok size =>
    by_cases h : l.toNat < size
    · simp [Except.toOption, h, Nat.not_le.mpr h]
      rfl
    · simp [Except.toOption, h, Nat.not_lt.mp h]
      rfl

theorem toOption_load (fs : FileSystem) (limit : Option UInt64) (path : String) :
    (SourceFile.load fs path limit).toOption
      = if limit.all fun l => (fs.size path).toOption.any (· ≤ l.toNat) then
          (fs.read path).toOption.map (SourceFile.ofOctets path)
        else none := by
  have hread : (((fs.read path).mapError (LoadError.unreadable path)) >>= fun octets =>
      pure (SourceFile.ofOctets path octets)).toOption
        = (fs.read path).toOption.map (SourceFile.ofOctets path) := by
    rw [toOption_bind, toOption_mapError]
    cases fs.read path <;> rfl
  cases limit with
  | none => exact hread
  | some l =>
    show (SourceFile.checkSize fs path l >>= fun _ => _).toOption = _
    rw [toOption_bind, toOption_checkSize, hread, Option.all_some]
    split <;> rfl

/-- What is printed of a file that can be loaded. -/
def printed? (fs : FileSystem) (limit : Option UInt64) (path : String) : Option FileTokens :=
  (text? fs limit path).map fun text => ⟨path, (Source.tokens text).map Token.text⟩

theorem toOption_tokenize (fs : FileSystem) (limit : Option UInt64) (path : String) :
    (tokenize fs limit path).toOption.map Tokenized.toFileTokens = printed? fs limit path := by
  rw [tokenize, toOption_bind, toOption_load, printed?, text?]
  split
  · cases fs.read path with
    | error cause => rfl
    | ok octets =>
      simp [Except.toOption, Tokenized.toFileTokens, path_ofOctets, text_ofOctets, pure,
        Except.pure]
  · rfl

theorem isOk_tokenize (fs : FileSystem) (limit : Option UInt64) (path : String) :
    (tokenize fs limit path).isOk = (text? fs limit path).isSome := by
  have h := congrArg Option.isSome (toOption_tokenize fs limit path)
  rw [printed?, Option.isSome_map, Option.isSome_map] at h
  rw [← h]
  cases tokenize fs limit path <;> rfl

/-- Why a file cannot be loaded, if it cannot. -/
def failure? (fs : FileSystem) (limit : Option UInt64) (path : String) : Option LoadError :=
  match SourceFile.load fs path limit with
  | .error e => some e
  | .ok _ => none

theorem failure?_eq_some_iff {e : LoadError} :
    failure? fs limit path = some e ↔ SourceFile.load fs path limit = .error e := by
  rw [failure?]
  cases SourceFile.load fs path limit <;> simp

theorem failure?_eq_none_iff :
    failure? fs limit path = none ↔ (text? fs limit path).isSome := by
  rw [← isOk_tokenize, failure?, tokenize]
  cases SourceFile.load fs path limit <;> simp [Except.isOk, Except.toBool, bind, Except.bind,
    pure, Except.pure]

/-- A file that cannot be loaded is named by what is said of it. -/
theorem path_of_failure? {e : LoadError} (h : failure? fs limit path = some e) :
    e.path = path := by
  have hmap : ∀ {α : Type} {x : Except FileError α},
      x.mapError (.unreadable path) = .error e → e.path = path := by
    intro α x hx
    cases x with
    | error cause => cases hx; rfl
    | ok a => cases hx
  have hread : ((fs.read path).mapError (.unreadable path) >>= fun octets =>
      pure (SourceFile.ofOctets path octets)) = .error e → e.path = path := by
    intro hread
    rcases bind_eq_error_iff.mp hread with hread | ⟨_, _, hread⟩
    · exact hmap hread
    · cases hread
  have hload := failure?_eq_some_iff.mp h
  cases limit with
  | none => exact hread hload
  | some l =>
    rcases bind_eq_error_iff.mp hload with hsize | ⟨_, _, hload⟩
    · rcases bind_eq_error_iff.mp hsize with hsize | ⟨size, _, hover⟩
      · exact hmap hsize
      · split at hover
        · cases hover; rfl
        · cases hover
    · exact hread hload

/-! ## The log -/

theorem filter_error_workEvents (r : Except LoadError Tokenized) :
    (workEvents r).filter (·.level = .error) = [] := by
  cases r with
  | error e => rfl
  | ok t =>
    have hnames : ∀ names : List String,
        (names.map Event.interpreter).filter (·.level = .error) = [] := by
      intro names
      simp [Event.level]
    simp only [workEvents, List.filter_append, List.filter_cons, hnames]
    split <;> rfl

theorem filter_error_reportEvents (timed : Bool) (fs : FileSystem) (limit : Option UInt64)
    (path : String) :
    (reportEvents timed (tokenize fs limit path)).filter (·.level = .error)
      = ((failure? fs limit path).map fun e => .failed e.describe).toList := by
  rw [failure?, tokenize]
  cases SourceFile.load fs path limit with
  | error e => rfl
  | ok source =>
    show (if timed then _ else _ : List Event).filter _ = []
    split <;> rfl

/-- The errors of a run are those of the files that cannot be loaded, in the order of
the files. -/
theorem errors_log (fs : FileSystem) (config : Config) (shown : Verbosity)
    (paths : List String) :
    (files fs config shown paths).log.filter (·.level = .error)
      = if shown.admits .error then
          (paths.filterMap (failure? fs config.maxFileSize)).map fun e => .failed e.describe
        else [] := by
  have hadmits : ∀ e : Event, (decide (e.level = .error) && shown.admits e.level)
      = (shown.admits .error && decide (e.level = .error)) := by
    intro e
    by_cases he : e.level = .error
    · simp [he]
    · simp [he]
  have hall : ∀ paths : List String,
      ((paths.map (tokenize fs config.maxFileSize)).flatMap (reportEvents config.timed)).filter
          (·.level = .error)
        = (paths.filterMap (failure? fs config.maxFileSize)).map fun e => .failed e.describe := by
    intro paths
    induction paths with
    | nil => rfl
    | cons path paths ih =>
      rw [List.map_cons, List.flatMap_cons, List.filter_append, ih, filter_error_reportEvents,
        List.filterMap_cons]
      cases failure? fs config.maxFileSize path <;> rfl
  have hwork : ∀ rs : List (Except LoadError Tokenized),
      (rs.flatMap workEvents).filter (·.level = .error) = [] := by
    intro rs
    rw [List.filter_flatMap]
    simp [filter_error_workEvents]
  simp only [files, List.filter_filter, hadmits]
  cases shown.admits .error with
  | false => simp
  | true =>
    simp only [Bool.true_and, List.filter_append, hwork, hall, List.nil_append, if_true]

theorem timed_mem_reportEvents {timed : Bool} {file : String} {n : Nat} :
    .timed path n ∈ reportEvents timed (tokenize fs limit file)
      ↔ timed = true ∧ path = file ∧
        ∃ text, text? fs limit file = some text ∧ (Source.tokens text).length = n := by
  have hprinted := toOption_tokenize fs limit file
  cases htokenize : tokenize fs limit file with
  | error e =>
    rw [htokenize] at hprinted
    have htext : text? fs limit file = none := Option.map_eq_none_iff.mp hprinted.symm
    simp [reportEvents, htext]
  | ok t =>
    rw [htokenize] at hprinted
    obtain ⟨text, htext, hsame⟩ := Option.map_eq_some_iff.mp hprinted.symm
    obtain ⟨hpath, htokens⟩ := FileTokens.mk.inj hsame
    have hlength : (Source.tokens text).length = t.tokens.length := by
      simpa using congrArg List.length htokens
    have hreport : .timed path n ∈ reportEvents timed (.ok t)
        ↔ timed = true ∧ path = file ∧ t.tokens.length = n := by
      cases timed <;> simp [reportEvents, hpath, eq_comm]
    simp [hreport, htext, hlength]

/-- Times are logged of the files that can be loaded, if they are wanted and shown. -/
theorem timed_mem_log {shown : Verbosity} {n : Nat} :
    .timed path n ∈ (files fs config shown paths).log
      ↔ shown.admits .info = true ∧ config.timed = true ∧ path ∈ paths ∧
        ∃ text, text? fs config.maxFileSize path = some text ∧
          (Source.tokens text).length = n := by
  have hwork : ∀ r, .timed path n ∉ workEvents r := by
    intro r
    cases r with
    | error e => exact nofun
    | ok t =>
      simp only [workEvents]
      split <;> simp
  have hreport : .timed path n ∈
      (paths.map (tokenize fs config.maxFileSize)).flatMap (reportEvents config.timed)
        ↔ config.timed = true ∧ path ∈ paths ∧
          ∃ text, text? fs config.maxFileSize path = some text ∧
            (Source.tokens text).length = n := by
    rw [List.flatMap_map, List.mem_flatMap]
    simp only [timed_mem_reportEvents]
    constructor
    · rintro ⟨file, hfile, htimed, rfl, htext⟩
      exact ⟨htimed, hfile, htext⟩
    · rintro ⟨htimed, hpath, htext⟩
      exact ⟨path, hpath, htimed, rfl, htext⟩
  rw [files, List.mem_filter, List.mem_append, hreport]
  simp [hwork, Event.level, and_comm]

/-! ## The whole run -/

theorem failed_files (fs : FileSystem) (config : Config) (shown : Verbosity)
    (paths : List String) :
    (files fs config shown paths).failed
      = paths.any fun path => (text? fs config.maxFileSize path).isNone := by
  simp only [files, List.any_map, Function.comp_def, isOk_tokenize, Option.not_isSome]

theorem stdout_files (fs : FileSystem) (config : Config) (shown : Verbosity)
    (paths : List String) :
    (files fs config shown paths).stdout
      = Output.render config.outputFormat
          (paths.filterMap (printed? fs config.maxFileSize)) := by
  simp only [files, List.filterMap_map, List.map_filterMap, Function.comp_def, toOption_tokenize]

/-- Which files are dealt with, how they are printed and which are over the limit
decide what a run prints and how it ends. -/
theorem files_congr (fs : FileSystem) (paths : List String) {config config' : Config}
    (hformat : config'.outputFormat = config.outputFormat)
    (hlimit : config'.maxFileSize = config.maxFileSize) (shown shown' : Verbosity) :
    (files fs config' shown' paths).stdout = (files fs config shown paths).stdout ∧
      (files fs config' shown' paths).failed = (files fs config shown paths).failed := by
  simp [stdout_files, failed_files, hformat, hlimit]

/-- The settings of a file, if there is one. -/
def fileSettings (fs : FileSystem) : Option String → Except LoadError Config
  | some path => Config.load fs path
  | none => .ok .unset

theorem settings_eq_ok_iff :
    settings fs o = .ok config
      ↔ ∃ base, fileSettings fs (configFile? fs o) = .ok base ∧ base.merge o.toConfig = config := by
  rw [settings]
  cases configFile? fs o <;> simp [bind_eq_ok_iff, fileSettings, pure, Except.pure]

/-- A format in the arguments is the one in force. -/
theorem format_settings {f : Format} (h : settings fs o = .ok config)
    (hformat : o.format = some f) : config.format = some f := by
  obtain ⟨base, -, rfl⟩ := settings_eq_ok_iff.mp h
  show o.format.or base.format = some f
  rw [hformat, Option.some_or]

/-- Asking for times leaves the other settings as they are. -/
theorem settings_time (h : settings fs o = .ok config) (b : Bool) :
    ∃ config', settings fs { o with time := b } = .ok config' ∧
      config'.outputFormat = config.outputFormat ∧
      config'.maxFileSize = config.maxFileSize := by
  obtain ⟨base, hbase, rfl⟩ := settings_eq_ok_iff.mp h
  exact ⟨_, settings_eq_ok_iff.mpr ⟨base, hbase, rfl⟩, rfl, rfl⟩

theorem program_of_settings (asked : Option Verbosity) {args : List String}
    (hargs : CommandLine.read args = .ok (.run o)) (hconfig : settings fs o = .ok config) :
    program fs asked args = .ran (files fs config (verbosity asked config) o.files) := by
  simp [program, hargs, hconfig]

/-- The failures of a run name the files that hold no text, in their order. -/
theorem map_path_filterMap_failure? (paths : List String) :
    (paths.filterMap (failure? fs limit)).map LoadError.path
      = paths.filter fun path => text? fs limit path = none := by
  induction paths with
  | nil => rfl
  | cons path paths ih =>
    cases hfailure : failure? fs limit path with
    | none =>
      have htext : text? fs limit path ≠ none :=
        Option.isSome_iff_ne_none.mp (failure?_eq_none_iff.mp hfailure)
      simp [hfailure, htext, ih]
    | some e =>
      have htext : text? fs limit path = none := by
        by_contra hne
        have hnone := failure?_eq_none_iff.mpr (Option.isSome_iff_ne_none.mpr hne)
        simp [hnone] at hfailure
      simp [hfailure, htext, ih, path_of_failure? hfailure]

/-- What a run that has its files and its settings does.  It ends with an error as soon
as one file cannot be loaded.  If a document is asked for, what it prints says those that
can, each with the tokens of its own text, and there is nothing else that it could say.  It
logs one error for each of the others, which says why that file cannot be loaded.  Neither
the time of a file nor the verbosity has a part in what is printed or in how the run
ends. -/
theorem program_ran (fs : FileSystem) (asked : Option Verbosity) (args : List String)
    (o : Options) (config : Config) (hargs : CommandLine.read args = .ok (.run o))
    (hconfig : settings fs o = .ok config) :
    ∃ (r : Result) (errors : List LoadError),
      program fs asked args = .ran r ∧
      o.files.Sublist args ∧
      (program fs asked args).exitCode
        = (if ∃ path ∈ o.files, text? fs config.maxFileSize path = none then 1 else 0) ∧
      (o.format = some .json ∨ config.format = some .json → ∃ text d,
        r.stdout = text ++ "\n" ∧
        Json.Says d text.toList ∧
        (∀ d', Json.Writes d' r.stdout.toList → d' = d) ∧
        d = .array (o.files.filterMap fun path =>
          (text? fs config.maxFileSize path).map fun text =>
            .object [("file", .string path),
              ("tokens", .array ((Source.tokens text).map fun t => .string t.text))])) ∧
      errors.map LoadError.path
        = o.files.filter (fun path => text? fs config.maxFileSize path = none) ∧
      (∀ e ∈ errors, SourceFile.load fs e.path config.maxFileSize = .error e) ∧
      r.log.filter (·.level = .error)
        = (if (verbosity asked config).admits .error then
            errors.map fun e => .failed e.describe else []) ∧
      ∀ (asked' : Option Verbosity) (args' : List String) (b : Bool),
        CommandLine.read args' = .ok (.run { o with time := b }) →
        ∃ r', program fs asked' args' = .ran r' ∧ r'.stdout = r.stdout ∧
          (program fs asked' args').exitCode = (program fs asked args).exitCode := by
  have hprogram := program_of_settings asked hargs hconfig
  refine ⟨_, o.files.filterMap (failure? fs config.maxFileSize), hprogram,
    CommandLine.files_sublist hargs, ?exit, ?stdout, map_path_filterMap_failure? _, ?errors,
    errors_log .., ?settings⟩
  case exit =>
    rw [hprogram, Outcome.exitCode, failed_files]
    simp
  case stdout =>
    intro hjson
    have hformat : config.outputFormat = .json := by
      rw [Config.outputFormat, hjson.elim (format_settings hconfig) id, Option.getD_some]
    refine ⟨_, _, ?_, Output.says_indented (o.files.filterMap (printed? fs config.maxFileSize)),
      ?_, ?_⟩
    · rw [stdout_files, hformat]
      rfl
    · intro d hd
      rw [stdout_files, hformat] at hd
      exact Json.Document.eq_of_writes hd (Output.writes_render _)
    · simp [Output.filesDocument, Output.fileDocument, printed?, List.map_filterMap,
        Function.comp_def]
  case errors =>
    intro e he
    obtain ⟨path, -, hfailure⟩ := List.mem_filterMap.mp he
    rw [path_of_failure? hfailure]
    exact failure?_eq_some_iff.mp hfailure
  case settings =>
    intro asked' args' b hargs'
    obtain ⟨config', hconfig', hformat, hlimit⟩ := settings_time hconfig b
    have hprogram' := program_of_settings asked' hargs' hconfig'
    obtain ⟨hstdout, hfailed⟩ :=
      files_congr fs o.files hformat hlimit (verbosity asked config) (verbosity asked' config')
    refine ⟨_, hprogram', hstdout, ?_⟩
    rw [hprogram, hprogram', Outcome.exitCode, Outcome.exitCode, hfailed]

/-- One file, which holds one character, and nothing else. -/
def oneFile : FileSystem where
  read path := if path = "a" then .ok [0x78] else .error .notFound
  size path := if path = "a" then .ok 1 else .error .notFound
  present path := path == "a"

/-- What is said of the one file, if it can be loaded. -/
def oneFileDocument : Json.Document :=
  .object [("file", .string "a"), ("tokens", .array [.string "x"])]

/-- Of three arguments the middle one names no file. -/
theorem program_ran_oneFile :
    CommandLine.read ["-f", "json", "a", "b", "a"]
        = .ok (.run ⟨["a", "b", "a"], some .json, false, none, none⟩) ∧
      settings oneFile ⟨["a", "b", "a"], some .json, false, none, none⟩
        = .ok ⟨some .json, none, none⟩ ∧
      CommandLine.read ["a", "-fjson", "-t", "b", "a"]
        = .ok (.run ⟨["a", "b", "a"], some .json, true, none, none⟩) ∧
      ∃ r r' : Result,
        program oneFile none ["-f", "json", "a", "b", "a"] = .ran r ∧
        program oneFile (some .off) ["a", "-fjson", "-t", "b", "a"] = .ran r' ∧
        r'.stdout = r.stdout ∧
        (∃ text, r.stdout = text ++ "\n" ∧
          Json.Says (.array [oneFileDocument, oneFileDocument]) text.toList) ∧
        (program oneFile none ["-f", "json", "a", "b", "a"]).exitCode = 1 ∧
        r.log.filter (·.level = .error)
          = [.failed "failed to read `b`: No such file or directory (os error 2)"] := by
  have hargs : CommandLine.read ["-f", "json", "a", "b", "a"]
      = .ok (.run ⟨["a", "b", "a"], some .json, false, none, none⟩) := by decide +kernel
  have hconfig : settings oneFile ⟨["a", "b", "a"], some .json, false, none, none⟩
      = .ok ⟨some .json, none, none⟩ := by rfl
  have hargs' : CommandLine.read ["a", "-fjson", "-t", "b", "a"]
      = .ok (.run ⟨["a", "b", "a"], some .json, true, none, none⟩) := by decide +kernel
  obtain ⟨r, errors, hran, -, hexit, hjson, hpaths, herrors, hlog, htime⟩ :=
    program_ran oneFile none _ _ _ hargs hconfig
  obtain ⟨r', hran', hstdout, -⟩ := htime (some .off) _ true hargs'
  obtain ⟨text, d, htext, hsays, -, hd⟩ := hjson (.inl rfl)
  have hdocument : d = .array [oneFileDocument, oneFileDocument] := by
    have ha : text? oneFile none "a" = some "x" := by decide +kernel
    have hb : text? oneFile none "b" = none := by decide +kernel
    have htokens : (Source.tokens "x").map Token.text = ["x"] := by decide +kernel
    have hstrings : ((Source.tokens "x").map fun t => Json.Document.string t.text)
        = [.string "x"] := by
      rw [← Function.comp_def, ← List.map_map, htokens]
      rfl
    simp [hd, ha, hb, hstrings, oneFileDocument]
  have herror : errors = [.unreadable "b" .notFound] := by
    have hone : errors.map LoadError.path = ["b"] := by
      rw [hpaths]
      decide +kernel
    obtain ⟨e, rfl, he⟩ := List.map_eq_singleton_iff.mp hone
    have hload := herrors e (by simp)
    rw [he] at hload
    cases hload
    rfl
  refine ⟨hargs, hconfig, hargs', r, r', hran, hran', hstdout,
    ⟨text, htext, hdocument ▸ hsays⟩, ?_, ?_⟩
  · rw [hexit]
    decide +kernel
  · rw [hlog, herror]
    rfl

end Run

end SourceTokens

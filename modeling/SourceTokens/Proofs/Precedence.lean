/-
# `SourceTokens.Proofs.Precedence` — where the settings of a run come from

At most one file has a say in the settings.  It is the one that the arguments name, or the
default one if they name none and it is there.  What it says is described without the
reader of settings (`Run.Base`): it holds a text, the text writes a document, and the
document says settings.  If that fails the run does not start; if not, each setting is that
of the arguments, else that of the file, else a default (`Run.program_settings`).

A run that names its settings file does not look at the default one.  Of two states of the
files that agree on the paths in the arguments it makes the same (`Run.alike_of_agreeAt`).
-/
import SourceTokens.Proofs.Program
import SourceTokens.Proofs.SettingsExact
import SourceTokens.Proofs.Trees

namespace SourceTokens

/-! ## What shows of a run -/

/-- The ways to end. -/
inductive Ending
  | answered
  | misused
  | unconfigured
  | ran
  deriving DecidableEq, Repr

namespace Outcome

def ending : Outcome → Ending
  | answered _ => .answered
  | misused _ => .misused
  | unconfigured _ => .unconfigured
  | ran _ => .ran

/-- What is printed.  Complaints go elsewhere, and so does the log. -/
def stdout : Outcome → String
  | answered text => text
  | misused _ | unconfigured _ => ""
  | ran r => r.stdout

/-- Outcomes that differ in their complaints and in their logs at most. -/
structure Alike (a b : Outcome) : Prop where
  ending : a.ending = b.ending
  stdout : a.stdout = b.stdout
  exitCode : a.exitCode = b.exitCode

end Outcome

namespace Run

open SourceTokens.Json (Document Writes)

variable {fs fs' : FileSystem} {file : Option String} {path : String} {o : Options}
  {base config : Config} {d : Document} {args : List String}

/-! ## The file of settings -/

/-- A file holds a document if its octets are text that writes it. -/
def Holds (fs : FileSystem) (path : String) (d : Document) : Prop :=
  ∃ octets text, fs.read path = .ok octets ∧ Text.Utf8.decode? octets = some text ∧
    Writes d text.toList

/-- `Base fs file base`: before the arguments have their say, the settings are `base`.  A
file gives what its document says, and no file gives nothing. -/
inductive Base (fs : FileSystem) : Option String → Config → Prop
  | unset : Base fs none .unset
  | held {path : String} {d : Document} (hd : Holds fs path d)
      (h : (Config.ofDocument? d).isSome) : Base fs (some path) (.said d)

theorem load_eq_ok_iff :
    Config.load fs path = .ok config ↔ ∃ octets text, fs.read path = .ok octets ∧
      Text.Utf8.decode? octets = some text ∧ Config.read text = .ok config := by
  rw [Config.load, bind_eq_ok_iff]
  constructor
  · rintro ⟨octets, hread, h⟩
    split at h
    case h_1 => cases h
    case h_2 text htext =>
      exact ⟨octets, text, mapError_eq_ok_iff.mp hread, htext, mapError_eq_ok_iff.mp h⟩
  · rintro ⟨octets, text, hread, htext, h⟩
    exact ⟨octets, mapError_eq_ok_iff.mpr hread, by rw [htext]; exact mapError_eq_ok_iff.mpr h⟩

/-- Settings are loaded from a file that holds a document which says them. -/
theorem load_eq_ok_iff_base : Config.load fs path = .ok base ↔ Base fs (some path) base := by
  rw [load_eq_ok_iff]
  constructor
  · rintro ⟨octets, text, hread, htext, h⟩
    obtain ⟨d, hd, hbase⟩ := Config.read_eq_ok_iff_exists.mp h
    obtain rfl := Config.eq_said hbase
    exact .held ⟨octets, text, hread, htext, hd⟩ (by simp [hbase])
  · intro hbase
    cases hbase with
    | held hd h =>
      obtain ⟨octets, text, hread, htext, hd⟩ := hd
      obtain ⟨base, hbase⟩ := Option.isSome_iff_exists.mp h
      refine ⟨octets, text, hread, htext, Config.read_eq_ok_iff_exists.mpr ⟨_, hd, ?_⟩⟩
      rw [hbase, Config.eq_said hbase]

theorem fileSettings_eq_ok_iff : fileSettings fs file = .ok base ↔ Base fs file base := by
  cases file with
  | some path => exact load_eq_ok_iff_base
  | none =>
    constructor
    · rintro ⟨⟩
      exact .unset
    · rintro ⟨⟩
      rfl

theorem configFile?_eq (fs : FileSystem) (o : Options) :
    configFile? fs o
      = o.config.or (if fs.present "glossa.json" then some "glossa.json" else none) := by
  rw [configFile?]
  cases o.config <;> rfl

/-! ## Settings in force -/

/-- Format, limit and times are all that a run takes from its settings. -/
theorem files_congr_config {config config' : Config} (shown : Verbosity) (paths : List String)
    (hformat : config.outputFormat = config'.outputFormat)
    (hlimit : config.maxFileSize = config'.maxFileSize) (htimed : config.timed = config'.timed) :
    files fs config shown paths = files fs config' shown paths := by
  simp only [files, hformat, hlimit, htimed]

/-- The settings in force: of each, what the arguments say, else what the file says, else
the default. -/
def inForce (o : Options) (base : Config) : Config :=
  ⟨some (o.format.getD (base.format.getD .lines)), o.maxFileSize.or base.maxFileSize,
    some (if o.time then true else base.time.getD false)⟩

theorem outputFormat_inForce (o : Options) (base : Config) :
    (base.merge o.toConfig).outputFormat = (inForce o base).outputFormat := by
  cases h : o.format <;> simp [Config.outputFormat, Config.merge, Options.toConfig, inForce, h,
    Format.default]

theorem timed_inForce (o : Options) (base : Config) :
    (base.merge o.toConfig).timed = (inForce o base).timed := by
  cases h : o.time <;> simp [Config.timed, Config.merge, Options.toConfig, inForce, h]

/-- What comes of the settings: files are printed in the format, those over the limit are left
out, and times are logged if they are wanted and such events are not kept back. -/
structure Shows (fs : FileSystem) (asked : Option Verbosity) (paths : List String)
    (format : Format) (limit : Option UInt64) (wanted : Bool) (r : Result) : Prop where
  stdout : r.stdout = Output.render format (paths.filterMap (printed? fs limit))
  failed : r.failed = paths.any fun path => (text? fs limit path).isNone
  timed : ∀ path n, .timed path n ∈ r.log ↔
    wanted = true ∧ (∀ v ∈ asked, v.admits .info = true) ∧ path ∈ paths ∧
      ∃ text, text? fs limit path = some text ∧ (Source.tokens text).length = n

theorem shows_files (fs : FileSystem) (asked : Option Verbosity) (config : Config)
    (paths : List String) :
    Shows fs asked paths config.outputFormat config.maxFileSize config.timed
      (files fs config (verbosity asked config) paths) := by
  refine ⟨stdout_files .., failed_files .., ?_⟩
  intro path n
  rw [timed_mem_log]
  cases asked with
  | some v => simp [verbosity, and_left_comm]
  | none => cases h : config.timed <;> simp [verbosity, h, Verbosity.admits, Level.rank]

/-- A run whose settings file can be loaded deals with its files. -/
theorem program_of_base (asked : Option Verbosity) (hargs : CommandLine.read args = .ok (.run o))
    (hbase : Base fs (configFile? fs o) base) :
    program fs asked args
      = .ran (files fs (inForce o base) (verbosity asked (inForce o base)) o.files) := by
  have hconfig : settings fs o = .ok (base.merge o.toConfig) :=
    settings_eq_ok_iff.mpr ⟨base, fileSettings_eq_ok_iff.mpr hbase, rfl⟩
  rw [program_of_settings asked hargs hconfig, verbosity, verbosity, timed_inForce]
  exact congrArg Outcome.ran (files_congr_config _ _ (outputFormat_inForce o base) rfl
    (timed_inForce o base))

/-- A run does not start if its settings file cannot be loaded. -/
theorem program_of_no_base (asked : Option Verbosity)
    (hargs : CommandLine.read args = .ok (.run o))
    (hnone : ∀ base, ¬ Base fs (configFile? fs o) base) :
    ∃ e, program fs asked args = .unconfigured e := by
  cases hconfig : settings fs o with
  | ok config =>
    obtain ⟨base, hbase, -⟩ := settings_eq_ok_iff.mp hconfig
    exact absurd (fileSettings_eq_ok_iff.mp hbase) (hnone base)
  | error e => exact ⟨e, by simp [program, hargs, hconfig]⟩

theorem exists_unconfigured_iff (asked : Option Verbosity)
    (hargs : CommandLine.read args = .ok (.run o)) :
    (∃ e, program fs asked args = .unconfigured e)
      ↔ ∃ path, configFile? fs o = some path ∧ ∀ base, ¬ Base fs (some path) base := by
  constructor
  · rintro ⟨e, he⟩
    have hnone : ∀ base, ¬ Base fs (configFile? fs o) base := by
      intro base hbase
      rw [program_of_base asked hargs hbase] at he
      cases he
    cases hfile : configFile? fs o with
    | none => exact absurd (hfile ▸ .unset) (hnone .unset)
    | some path => exact ⟨path, rfl, fun base => hfile ▸ hnone base⟩
  · rintro ⟨path, hfile, hnone⟩
    exact program_of_no_base asked hargs (hfile ▸ hnone)

/-! ## Two states of the files -/

theorem holds_of_agreeAt (h : fs.AgreeAt fs' path) (hd : Holds fs path d) : Holds fs' path d := by
  obtain ⟨octets, text, hread, hrest⟩ := hd
  refine ⟨octets, text, ?_, hrest⟩
  rw [← toOption_eq_some_iff, ← h.read, hread]
  rfl

theorem base_of_agreeAt (h : fs.AgreeAt fs' path) (hbase : Base fs (some path) base) :
    Base fs' (some path) base := by
  cases hbase with
  | held hd hsome => exact .held (holds_of_agreeAt h hd) hsome

theorem text?_of_agreeAt (limit : Option UInt64) (h : fs.AgreeAt fs' path) :
    text? fs limit path = text? fs' limit path := by
  rw [text?, text?, h.read, h.size]

/-- Files of which the same can be learnt are printed alike. -/
theorem alike_files (config : Config) (shown : Verbosity) {paths : List String}
    (h : ∀ path ∈ paths, fs.AgreeAt fs' path) :
    (Outcome.ran (files fs config shown paths)).Alike (.ran (files fs' config shown paths)) := by
  have htexts : ∀ path ∈ paths,
      text? fs config.maxFileSize path = text? fs' config.maxFileSize path := by
    intro path hpath
    exact text?_of_agreeAt _ (h path hpath)
  refine ⟨rfl, ?stdout, ?exitCode⟩
  case stdout =>
    have hprinted : paths.filterMap (printed? fs config.maxFileSize)
        = paths.filterMap (printed? fs' config.maxFileSize) := by
      refine List.filterMap_congr ?_
      intro path hpath
      rw [printed?, printed?, htexts path hpath]
    rw [Outcome.stdout, Outcome.stdout, stdout_files, stdout_files, hprinted]
  case exitCode =>
    have hfailed : (paths.any fun path => (text? fs config.maxFileSize path).isNone)
        = paths.any fun path => (text? fs' config.maxFileSize path).isNone := by
      rw [Bool.eq_iff_iff, List.any_eq_true, List.any_eq_true]
      refine exists_congr ?_
      intro path
      refine and_congr_right ?_
      intro hpath
      rw [htexts path hpath]
    rw [Outcome.exitCode, Outcome.exitCode, failed_files, failed_files, hfailed]

/-- A run that names its settings file is decided by what can be learnt of the paths in its
arguments. -/
theorem alike_of_agreeAt (asked : Option Verbosity) (hargs : CommandLine.read args = .ok (.run o))
    (hfile : o.config.isSome) (h : ∀ path ∈ o.config.toList ++ o.files, fs.AgreeAt fs' path) :
    (program fs asked args).Alike (program fs' asked args) := by
  obtain ⟨path, hpath⟩ := Option.isSome_iff_exists.mp hfile
  have hagree : fs.AgreeAt fs' path := h path (by simp [hpath])
  have hfiles : ∀ path ∈ o.files, fs.AgreeAt fs' path := by
    intro path hmem
    exact h path (List.mem_append_right _ hmem)
  have hconfig : ∀ fs, configFile? fs o = some path := by
    intro fs
    rw [configFile?, hpath]
  by_cases hbase : ∃ base, Base fs (some path) base
  case pos =>
    obtain ⟨base, hbase⟩ := hbase
    have hran := program_of_base asked hargs (hconfig fs ▸ hbase)
    have hran' := program_of_base asked hargs (hconfig fs' ▸ base_of_agreeAt hagree hbase)
    rw [hran, hran']
    exact alike_files _ _ hfiles
  case neg =>
    have hnone : ∀ base, ¬ Base fs (some path) base := not_exists.mp hbase
    have hnone' : ∀ base, ¬ Base fs' (some path) base := by
      intro base hbase
      exact hnone base (base_of_agreeAt hagree.symm hbase)
    obtain ⟨e, he⟩ := program_of_no_base asked hargs (hconfig fs ▸ hnone)
    obtain ⟨e', he'⟩ := program_of_no_base asked hargs (hconfig fs' ▸ hnone')
    rw [he, he']
    exact ⟨rfl, rfl, rfl⟩

/-- Where the settings of a run come from.  The file is the one that the arguments name,
else the default one if it is there.  The run does not start just if there is a file and
nothing can be had from it.  If it starts, the format is that of the arguments, else that
of the file, else lines; the limit is that of the arguments, else that of the file, else
there is none; times are wanted if the arguments or the file say so; and no setting has a
part in another.  These are the settings that the run goes by.  If the arguments name the file, the run is the same for all states of the
files that agree on the paths in the arguments, and so for all trees that differ in the
default file alone, be it there or not and whatever it holds, unless one of those paths
leads to it. -/
theorem program_settings (asked : Option Verbosity) (args : List String) (o : Options)
    (hargs : CommandLine.read args = .ok (.run o)) :
    (∀ (fs : FileSystem) (file : Option String),
      file = o.config.or (if fs.present "glossa.json" then some "glossa.json" else none) →
      ((∃ e, program fs asked args = .unconfigured e)
        ↔ ∃ path, file = some path ∧ ∀ base, ¬ Base fs (some path) base) ∧
      ∀ base, Base fs file base → ∃ (config : Config) (r : Result),
        config.format = some (o.format.getD (base.format.getD .lines)) ∧
        config.outputFormat = o.format.getD (base.format.getD .lines) ∧
        config.maxFileSize = o.maxFileSize.or base.maxFileSize ∧
        config.time = some (if o.time then true else base.time.getD false) ∧
        config.timed = (if o.time then true else base.time.getD false) ∧
        program fs asked args = .ran r ∧
        r = files fs config (verbosity asked config) o.files ∧
        Shows fs asked o.files (o.format.getD (base.format.getD .lines))
          (o.maxFileSize.or base.maxFileSize)
          (if o.time then true else base.time.getD false) r) ∧
    (o.config.isSome →
      (∀ fs fs' : FileSystem, (∀ path ∈ o.config.toList ++ o.files, fs.AgreeAt fs' path) →
        (program fs asked args).Alike (program fs' asked args)) ∧
      ∀ t t' : FileTree, t.SameBut ["glossa.json"] t' →
        (∀ path ∈ o.config.toList ++ o.files, t.place? path ≠ some ["glossa.json"]) →
        (program t.toFileSystem asked args).Alike (program t'.toFileSystem asked args)) := by
  refine ⟨?settings, ?named⟩
  case settings =>
    intro fs file hfile
    obtain rfl := hfile.trans (configFile?_eq fs o).symm
    refine ⟨exists_unconfigured_iff asked hargs, ?_⟩
    intro base hbase
    exact ⟨inForce o base, _, rfl, rfl, rfl, rfl, rfl, program_of_base asked hargs hbase, rfl,
      shows_files fs asked (inForce o base) o.files⟩
  case named =>
    intro hfile
    refine ⟨fun fs fs' => alike_of_agreeAt asked hargs hfile, ?_⟩
    intro t t' hsame hplace
    refine alike_of_agreeAt asked hargs hfile ?_
    intro path hpath
    exact FileTree.agreeAt_of_sameBut hsame (hplace path hpath)

/-- A file to deal with, and one that holds settings. -/
def settled : FileTree :=
  (FileTree.empty.addFile "a" [0x78]).addFile "s.json"
    ("\x7b\"format\":\"json\"\x7d".toList.map fun c => c.val.toUInt8)

/-- The same with a file in the default place that is not even text. -/
def disputed : FileTree := settled.addFile "glossa.json" [0xff]

theorem holds_disputed :
    Holds disputed.toFileSystem "s.json" (.object [("format", .string "json")]) := by
  have hread : disputed.toFileSystem.read "s.json"
      = .ok ("\x7b\"format\":\"json\"\x7d".toList.map fun c => c.val.toUInt8) := by
    decide +kernel
  have hformat := Json.Quoted.spells_encode "format".toList
  have hjson := Json.Quoted.spells_encode "json".toList
  have hwrites := Writes.mk Json.blank_nil (.object (.cons (.first Json.blank_nil) hformat
    Json.blank_nil Json.blank_nil (.string hjson) (.close Json.blank_nil))) Json.blank_nil
  exact ⟨_, "\x7b\"format\":\"json\"\x7d", hread, by decide +kernel, hwrites⟩

/-- With its settings file named, the run takes the format from there, unless the arguments
give one, and does not look at the file in the default place, which keeps a run without that
argument from starting. -/
theorem program_settings_disputed :
    CommandLine.read ["-c", "s.json", "a"]
        = .ok (.run ⟨["a"], none, false, none, some "s.json"⟩) ∧
      CommandLine.read ["-c", "s.json", "-f", "counts", "-t", "a"]
        = .ok (.run ⟨["a"], some .counts, true, none, some "s.json"⟩) ∧
      CommandLine.read ["a"] = .ok (.run ⟨["a"], none, false, none, none⟩) ∧
      (∃ r, program disputed.toFileSystem none ["-c", "s.json", "a"] = .ran r ∧
        r.stdout = "[\n  \x7b\n    \"file\": \"a\",\n    \"tokens\": [\n      \"x\"\n    ]\n  \x7d\n]\n" ∧
        .timed "a" 1 ∉ r.log) ∧
      (∃ r, program disputed.toFileSystem none ["-c", "s.json", "-f", "counts", "-t", "a"]
          = .ran r ∧
        r.stdout = "1\tx\n" ∧ .timed "a" 1 ∈ r.log) ∧
      (program settled.toFileSystem none ["-c", "s.json", "a"]).Alike
        (program disputed.toFileSystem none ["-c", "s.json", "a"]) ∧
      ∃ e, program disputed.toFileSystem none ["a"] = .unconfigured e := by
  have hargs : CommandLine.read ["-c", "s.json", "a"]
      = .ok (.run ⟨["a"], none, false, none, some "s.json"⟩) := by decide +kernel
  have hflags : CommandLine.read ["-c", "s.json", "-f", "counts", "-t", "a"]
      = .ok (.run ⟨["a"], some .counts, true, none, some "s.json"⟩) := by decide +kernel
  have hargs' : CommandLine.read ["a"] = .ok (.run ⟨["a"], none, false, none, none⟩) := by
    decide +kernel
  obtain ⟨hnamed, halike⟩ := program_settings none _ _ hargs
  obtain ⟨hflagged, -⟩ := program_settings none _ _ hflags
  obtain ⟨hunnamed, -⟩ := program_settings none _ _ hargs'
  have hbase : Base disputed.toFileSystem (some "s.json") ⟨some .json, none, none⟩ :=
    .held holds_disputed rfl
  have htext : text? disputed.toFileSystem none "a" = some "x" := by decide +kernel
  have htokens : (Source.tokens "x").map Token.text = ["x"] := by decide +kernel
  have hprinted : ["a"].filterMap (printed? disputed.toFileSystem none) = [⟨"a", ["x"]⟩] := by
    simp [printed?, htext, htokens]
  refine ⟨hargs, hflags, hargs', ?ran, ?flagged, ?alike, ?unconfigured⟩
  case ran =>
    obtain ⟨-, hran⟩ := hnamed disputed.toFileSystem (some "s.json") rfl
    obtain ⟨_, r, -, -, -, -, -, hprogram, -, hshows⟩ := hran _ hbase
    refine ⟨r, hprogram, hshows.stdout.trans ?_, ?_⟩
    · show Output.render .json (["a"].filterMap (printed? disputed.toFileSystem none)) = _
      rw [hprinted]
      decide +kernel
    · intro htimed
      cases ((hshows.timed _ _).mp htimed).1
  case flagged =>
    obtain ⟨-, hran⟩ := hflagged disputed.toFileSystem (some "s.json") rfl
    obtain ⟨_, r, -, -, -, -, -, hprogram, -, hshows⟩ := hran _ hbase
    refine ⟨r, hprogram, hshows.stdout.trans ?_, (hshows.timed _ _).mpr ?_⟩
    · show Output.render .counts (["a"].filterMap (printed? disputed.toFileSystem none)) = _
      rw [hprinted]
      decide +kernel
    · refine ⟨rfl, nofun, .head _, "x", htext, ?_⟩
      simpa using congrArg List.length htokens
  case alike =>
    obtain ⟨-, htrees⟩ := halike rfl
    have hsame : settled.SameBut ["glossa.json"] disputed :=
      FileTree.sameBut_addFile settled "glossa.json" [0xff] (by decide +kernel)
    exact htrees settled disputed hsame (by decide +kernel)
  case unconfigured =>
    have hpresent : disputed.toFileSystem.present "glossa.json" = true := by decide +kernel
    have hread : disputed.toFileSystem.read "glossa.json" = .ok [0xff] := by decide +kernel
    obtain ⟨hfatal, -⟩ :=
      hunnamed disputed.toFileSystem (some "glossa.json") (by rw [hpresent]; rfl)
    refine hfatal.mpr ⟨"glossa.json", rfl, ?_⟩
    intro base hbase
    cases hbase with
    | held hd h =>
      obtain ⟨octets, text, hoctets, htext, -⟩ := hd
      obtain rfl := Except.ok.inj (hread.symm.trans hoctets)
      have hbad : Text.Utf8.decode? [0xff] = none := by decide +kernel
      rw [hbad] at htext
      cases htext

end Run

end SourceTokens

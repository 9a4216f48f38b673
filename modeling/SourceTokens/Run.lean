/-
# `SourceTokens.Run` — a run of the program

A run is a function of the arguments, the files and the verbosity asked for.  Every
file is dealt with by itself; one that cannot be loaded is reported and left out, and
makes the run a failure.
-/
import SourceTokens.CommandLine
import SourceTokens.Files.Source
import SourceTokens.Log
import SourceTokens.Output
import SourceTokens.Source

namespace SourceTokens

/-- What a run printed, what happened in it, and whether a file failed. -/
structure Result where
  stdout : String
  log : List Event
  failed : Bool
  deriving DecidableEq, Repr

/-- How the program ended. -/
inductive Outcome
  /-- It printed what it was asked about itself. -/
  | answered (text : String)
  /-- The arguments were refused. -/
  | misused (e : Misuse)
  /-- The settings could not be loaded. -/
  | unconfigured (e : LoadError)
  | ran (r : Result)

def Outcome.exitCode : Outcome → UInt8
  | answered _ => 0
  | misused _ => 2
  | unconfigured _ => 1
  | ran r => if r.failed then 1 else 0

namespace Run

/-! ## Settings -/

/-- The file that settings are loaded from, if any. -/
def configFile? (fs : FileSystem) (o : Options) : Option String :=
  match o.config with
  | some path => some path
  | none => if fs.present Config.defaultFile then some Config.defaultFile else none

/-- The settings in force: those of the file, and those of the arguments on top. -/
def settings (fs : FileSystem) (o : Options) : Except LoadError Config := do
  let base ← match configFile? fs o with
    | some path => Config.load fs path
    | none => pure .unset
  return base.merge o.toConfig

/-! ## Files -/

/-- A source with its tokens. -/
structure Tokenized where
  source : SourceFile
  tokens : List Token
  deriving DecidableEq, Repr

/-- What is printed of it. -/
def Tokenized.toFileTokens (t : Tokenized) : FileTokens :=
  ⟨t.source.path, t.tokens.map Token.text⟩

/-- Load a file and find its tokens. -/
def tokenize (fs : FileSystem) (limit : Option UInt64) (path : String) :
    Except LoadError Tokenized := do
  let source ← SourceFile.load fs path limit
  return ⟨source, Source.tokens source.text⟩

/-- What happens while a file is dealt with. -/
def workEvents : Except LoadError Tokenized → List Event
  | .error _ => []
  | .ok t =>
    let octets := t.source.text.utf8ByteSize
    (if t.source.repaired then [.repaired t.source.path] else []) ++
      .loaded t.source.path octets ::
      (t.tokens.filterMap Token.interpreter?).map .interpreter ++
      [.tokenized octets t.tokens.length]

/-- What is reported of a file when all have been dealt with. -/
def reportEvents (timed : Bool) : Except LoadError Tokenized → List Event
  | .error e => [.failed e.describe]
  | .ok t => if timed then [.timed t.source.path t.tokens.length] else []

/-! ## The run -/

/-- How much is shown: what is asked for, else warnings, and times if they are
wanted. -/
def verbosity (asked : Option Verbosity) (config : Config) : Verbosity :=
  asked.getD (.upTo (if config.timed then .info else .warn))

/-- Deal with the files of a run. -/
def files (fs : FileSystem) (config : Config) (shown : Verbosity) (paths : List String) :
    Result :=
  let results := paths.map (tokenize fs config.maxFileSize)
  let tokenized := results.filterMap Except.toOption
  { stdout := Output.render config.outputFormat (tokenized.map Tokenized.toFileTokens)
    log := (results.flatMap workEvents ++
      results.flatMap (reportEvents config.timed)).filter (shown.admits ·.level)
    failed := results.any fun r => !r.isOk }

/-- The whole program. -/
def program (fs : FileSystem) (asked : Option Verbosity) (args : List String) : Outcome :=
  match CommandLine.read args with
  | .error e => .misused e
  | .ok .help => .answered CommandLine.helpText
  | .ok .version => .answered CommandLine.versionText
  | .ok (.run o) =>
    match settings fs o with
    | .error e => .unconfigured e
    | .ok config => .ran (files fs config (verbosity asked config) o.files)

end Run

end SourceTokens

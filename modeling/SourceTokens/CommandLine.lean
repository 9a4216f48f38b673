/-
# `SourceTokens.CommandLine` — arguments

Arguments are read from left to right.  An option takes its value from the same
argument or from the next one; short options that take none may share an argument.
Asking for help or for the version ends the reading, so that only what stands before
can be at fault.  After `--` every argument is a file.

No option may be given twice, and a value in an argument of its own may not look like
an option.  A hyphen by itself looks like none.
-/
import SourceTokens.Config.Basic

namespace SourceTokens

/-- What the arguments set. -/
structure Options where
  files : List String
  format : Option Format
  time : Bool
  maxFileSize : Option UInt64
  config : Option String
  deriving DecidableEq, Repr

/-- What the arguments ask for. -/
inductive Request
  | help
  | version
  | run (options : Options)
  deriving DecidableEq, Repr

/-- Why arguments are refused. -/
inductive Misuse
  | unknownOption (name : String)
  | repeatedOption (name : String)
  | missingValue (name : String)
  | unexpectedValue (name : String)
  | invalidValue (name value : String)
  | noFile
  deriving DecidableEq, Repr

/-- The refusal in words. -/
def Misuse.message : Misuse → String
  | unknownOption name => "unexpected argument '" ++ name ++ "' found"
  | repeatedOption name => "the argument '" ++ name ++ "' cannot be used multiple times"
  | missingValue name => "a value is required for '" ++ name ++ "' but none was supplied"
  | unexpectedValue name => "unexpected value for '" ++ name ++ "' found"
  | invalidValue name value => "invalid value '" ++ value ++ "' for '" ++ name ++ "'"
  | noFile => "the required argument '<FILE>...' was not provided"

namespace CommandLine

/-- Options that take no value. -/
inductive Switch
  | time
  | help
  | version
  deriving DecidableEq, Repr

/-- Options that take a value. -/
inductive Setting
  | format
  | maxFileSize
  | config
  deriving DecidableEq, Repr

/-- Either kind of option. -/
inductive Flag
  | switch (s : Switch)
  | setting (s : Setting)
  deriving DecidableEq, Repr

def Setting.name : Setting → String
  | format => "--format"
  | maxFileSize => "--max-file-size"
  | config => "--config"

/-- The options by their long names. -/
def long? : String → Option Flag
  | "format" => some (.setting .format)
  | "time" => some (.switch .time)
  | "max-file-size" => some (.setting .maxFileSize)
  | "config" => some (.setting .config)
  | "help" => some (.switch .help)
  | "version" => some (.switch .version)
  | _ => none

/-- The options by their letters. -/
def short? : Char → Option Flag
  | 'f' => some (.setting .format)
  | 't' => some (.switch .time)
  | 'c' => some (.setting .config)
  | 'h' => some (.switch .help)
  | 'V' => some (.switch .version)
  | _ => none

/-- A number of 64 bits: decimal digits, possibly after a plus sign. -/
def word64? (s : String) : Option UInt64 :=
  let ds := match s.toList with
    | '+' :: ds => ds
    | ds => ds
  if ds = [] ∨ !ds.all Char.isDigit then none
  else
    let n := ds.foldl (fun n d => n * 10 + (d.toNat - '0'.toNat)) 0
    if n < Nat.pow 2 64 then some (.ofNat n) else none

/-- Give a setting its value, the first and only time. -/
def set (o : Options) (s : Setting) (value : String) : Except Misuse Options :=
  match s with
  | .format =>
    if o.format.isSome then throw (.repeatedOption s.name)
    else match Format.read value with
      | .ok f => pure { o with format := some f }
      | .error _ => throw (.invalidValue s.name value)
  | .maxFileSize =>
    if o.maxFileSize.isSome then throw (.repeatedOption s.name)
    else match word64? value with
      | some n => pure { o with maxFileSize := some n }
      | none => throw (.invalidValue s.name value)
  | .config =>
    if o.config.isSome then throw (.repeatedOption s.name)
    else if value = "" then throw (.invalidValue s.name value)
    else pure { o with config := some value }

/-- Add a file, which has to have a name. -/
def addFile (o : Options) (file : String) : Except Misuse Options :=
  if file = "" then throw (.invalidValue "<FILE>..." file)
  else pure { o with files := o.files ++ [file] }

/-- Where the reading stands after an argument. -/
inductive Progress
  | reading (o : Options)
  /-- The next argument is the value of a setting. -/
  | awaiting (o : Options) (s : Setting)
  | answered (r : Request)
  deriving DecidableEq, Repr

/-- Turn a switch on. -/
def turnOn (o : Options) : Switch → Except Misuse Progress
  | .time =>
    if o.time then throw (.repeatedOption "--time")
    else pure (.reading { o with time := true })
  | .help => pure (.answered .help)
  | .version => pure (.answered .version)

/-- An argument with a long name, and what follows the equals sign in it. -/
def takeLong (o : Options) (name : String) (value : Option String) :
    Except Misuse Progress :=
  match long? name, value with
  | none, _ => throw (.unknownOption ("--" ++ name))
  | some (.switch s), none => turnOn o s
  | some (.switch _), some _ => throw (.unexpectedValue ("--" ++ name))
  | some (.setting s), none => pure (.awaiting o s)
  | some (.setting s), some v => return .reading (← set o s v)

/-- The letters of an argument.  What follows the letter of a setting is its value,
possibly after an equals sign. -/
def takeLetters (o : Options) : List Char → Except Misuse Progress
  | [] => pure (.reading o)
  | c :: cs =>
    match short? c, cs with
    | none, _ => throw (.unknownOption ("-" ++ String.ofList [c]))
    | some (.setting s), [] => pure (.awaiting o s)
    | some (.setting s), '=' :: v => return .reading (← set o s (.ofList v))
    | some (.setting s), v => return .reading (← set o s (.ofList v))
    | some (.switch s), cs => do
      match ← turnOn o s with
      | .reading o => takeLetters o cs
      | p => return p

/-- One argument before any `--`. -/
def take (o : Options) (arg : String) : Except Misuse Progress :=
  match arg.toList with
  | '-' :: '-' :: name =>
    let key := String.ofList (name.takeWhile (· ≠ '='))
    match name.dropWhile (· ≠ '=') with
    | [] => takeLong o key none
    | _ :: value => takeLong o key (some (.ofList value))
  | '-' :: c :: cs => takeLetters o (c :: cs)
  | _ => return .reading (← addFile o arg)

/-- Whether an argument is taken for an option. -/
def looksLikeOption (arg : String) : Bool :=
  match arg.toList with
  | '-' :: _ :: _ => true
  | _ => false

/-- What the options ask for. -/
def finish (o : Options) : Except Misuse Request :=
  if o.files = [] then throw .noFile else pure (.run o)

/-- Read the arguments that are left. -/
def readFrom (o : Options) : List String → Except Misuse Request
  | [] => finish o
  | arg :: args =>
    if arg = "--" then do finish (← args.foldlM addFile o)
    else do
      match ← take o arg with
      | .reading o => readFrom o args
      | .answered r => return r
      | .awaiting o s =>
        match args with
        | [] => throw (.missingValue s.name)
        | value :: args =>
          if looksLikeOption value then throw (.missingValue s.name)
          else readFrom (← set o s value) args

/-- Read the arguments. -/
def read (args : List String) : Except Misuse Request :=
  readFrom ⟨[], none, false, none, none⟩ args

/-- The name and version of the program. -/
def versionText : String := "glossa 0.1.0\n"

/-- How the program is used. -/
def helpText : String :=
  String.join <| [
    "glossa - Language-agnostic source tokenizer",
    "",
    "Usage: glossa [OPTIONS] <FILE>...",
    "",
    "Arguments:",
    "  <FILE>...  Source files to tokenize",
    "",
    "Options:",
    "  -f, --format <FORMAT>        Output format: lines, counts or json",
    "  -t, --time                   Log how long tokenizing each file took",
    "      --max-file-size <BYTES>  Reject files larger than this many bytes",
    "  -c, --config <CONFIG>        Path to a config file (defaults to " ++
      "./glossa.json when present)",
    "  -h, --help                   Print help",
    "  -V, --version                Print version"].map (· ++ "\n")

end CommandLine

/-- The settings that the arguments make. -/
def Options.toConfig (o : Options) : Config :=
  ⟨o.format, o.maxFileSize, if o.time then some true else none⟩

end SourceTokens

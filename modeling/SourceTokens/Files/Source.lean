/-
# `SourceTokens.Files.Source` — loading sources and settings

A source is loaded whatever its octets are: bad stretches are replaced.  Settings
have to be text, and the text has to hold settings.  A source over the limit is
refused by its size, before it is read.
-/
import SourceTokens.Config.Reader
import SourceTokens.Files.System
import SourceTokens.Text.Utf8

namespace SourceTokens

/-- Why a source or the settings could not be loaded. -/
inductive LoadError
  | unreadable (path : String) (cause : FileError)
  | tooLarge (path : String) (size : Nat) (limit : Nat)
  | badConfig (path : String) (cause : Json.Error)

namespace LoadError

/-- The file that could not be loaded. -/
def path : LoadError → String
  | unreadable path _ => path
  | tooLarge path _ _ => path
  | badConfig path _ => path

/-- What went wrong. -/
def message : LoadError → String
  | unreadable path _ => "failed to read `" ++ path ++ "`"
  | tooLarge path size limit =>
    "`" ++ path ++ "` is " ++ toString size ++ " bytes, over the " ++ toString limit ++
      " byte limit"
  | badConfig path _ => "invalid config file `" ++ path ++ "`"

/-- Why it went wrong, where that is not the whole story already. -/
def cause? : LoadError → Option String
  | unreadable _ cause => some cause.message
  | tooLarge _ _ _ => none
  | badConfig _ cause => some cause.message

/-- What went wrong and why, on one line. -/
def describe (e : LoadError) : String :=
  match e.cause? with
  | none => e.message
  | some cause => e.message ++ ": " ++ cause

end LoadError

/-- A source in memory. -/
structure SourceFile where
  path : String
  text : String
  /-- Whether bad stretches had to be replaced. -/
  repaired : Bool
  deriving DecidableEq, Repr

namespace SourceFile

/-- The source that the octets of a file hold. -/
def ofOctets (path : String) (octets : List UInt8) : SourceFile :=
  match Text.Utf8.decode? octets with
  | some text => ⟨path, text, false⟩
  | none => ⟨path, Text.Utf8.decodeLenient octets, true⟩

/-- Refuse a file that is over the limit. -/
def checkSize (fs : FileSystem) (path : String) (limit : UInt64) :
    Except LoadError Unit := do
  let size ← (fs.size path).mapError (.unreadable path)
  if limit.toNat < size then throw (.tooLarge path size limit.toNat)

/-- Load a source. -/
def load (fs : FileSystem) (path : String) (limit : Option UInt64) :
    Except LoadError SourceFile := do
  match limit with
  | some limit => checkSize fs path limit
  | none => pure ()
  let octets ← (fs.read path).mapError (.unreadable path)
  return ofOctets path octets

end SourceFile

/-- Load settings. -/
def Config.load (fs : FileSystem) (path : String) : Except LoadError Config := do
  let octets ← (fs.read path).mapError (.unreadable path)
  match Text.Utf8.decode? octets with
  | none => throw (.unreadable path .notText)
  | some text => (Config.read text).mapError (.badConfig path)

end SourceTokens

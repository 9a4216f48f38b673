/-
# `SourceTokens.Config.Basic` — settings

Every setting may be left open.  Settings come in layers, and a later layer decides
what it sets and leaves the rest alone.
-/
import SourceTokens.Config.Format
import SourceTokens.Json.Value

namespace SourceTokens

/-- A format as text. -/
def Format.encode (f : Format) : String := (Json.Value.string f.key).compact

/-- Settings, each of them optional. -/
structure Config where
  format : Option Format
  /-- The number of octets beyond which a file is refused. -/
  maxFileSize : Option UInt64
  /-- Whether to log how long each file took. -/
  time : Option Bool
  deriving DecidableEq, Repr

namespace Config

/-- No setting at all. -/
def unset : Config := ⟨none, none, none⟩

/-- The settings of a layer with those of a later one on top. -/
def merge (c later : Config) : Config :=
  ⟨later.format.or c.format, later.maxFileSize.or c.maxFileSize, later.time.or c.time⟩

/-- The format in force. -/
def outputFormat (c : Config) : Format := c.format.getD .default

/-- Whether times are logged. -/
def timed (c : Config) : Bool := c.time.getD false

/-- The file consulted when none is named. -/
def defaultFile : String := "glossa.json"

theorem merge_assoc (a b c : Config) : (a.merge b).merge c = a.merge (b.merge c) := by
  simp [merge, Option.or_assoc]

theorem unset_merge (c : Config) : unset.merge c = c := by simp [merge, unset]

theorem merge_unset (c : Config) : c.merge unset = c := by simp [merge, unset]

/-! ## Written form -/

/-- The settings as a document. -/
def toValue (c : Config) : Json.Value :=
  .object [("format", .ofOption (fun f => .string f.key) c.format),
    ("maxFileSize", .ofOption (fun n => .natural n.toNat) c.maxFileSize),
    ("time", .ofOption .boolean c.time)]

/-- The settings as text. -/
def encode (c : Config) : String := c.toValue.compact

end Config

end SourceTokens

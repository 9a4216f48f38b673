/-
# `SourceTokens.Config.Reader` — reading settings

Settings are a JSON object with some of three fields, none twice and no others, or a
list of all three in their order.  A field that is null is left open.  A format is
its name, or an object with the name for its only key and null for a value.
-/
import SourceTokens.Config.Basic
import SourceTokens.Json.Message
import SourceTokens.Json.Reader

namespace SourceTokens.Config

open SourceTokens.Json (Cursor Error)

/-- The fields of the settings. -/
inductive Field
  | format
  | maxFileSize
  | time
  deriving DecidableEq, Repr

namespace Field

/-- Every field, in the order of the list form. -/
def all : List Field := [format, maxFileSize, time]

def name : Field → String
  | format => "format"
  | maxFileSize => "maxFileSize"
  | time => "time"

def ofName? (s : String) : Option Field := all.find? (·.name == s)

end Field

/-- A format by its name. -/
def readFormatName (c : Cursor) : Except Error (Format × Cursor) := do
  let (s, c) ← Json.string "variant identifier" c
  match Format.ofKey? s with
  | some f => return (f, c)
  | none => c.fail (.unknownVariant s (Format.all.map Format.key))

def readFormat (c : Cursor) : Except Error (Format × Cursor) := do
  let (d, c) ← Json.value c
  if d = '"' then readFormatName c
  else if d = '\x7b' then
    let (f, c) ← readFormatName c.bump
    let c := (← Json.null (← Json.colon c)).skipBlank
    match c.peek with
    | some '\x7d' => return (f, c.bump)
    | some _ => c.fail .expectedValue
    | none => c.fail .endInObject
  else c.failAhead .expectedValue

/-- The settings with one field read. -/
def readField (config : Config) (f : Field) (c : Cursor) :
    Except Error (Config × Cursor) := do
  match f with
  | .format =>
    let (v, c) ← Json.nullOr readFormat c
    return ({ config with format := v }, c)
  | .maxFileSize =>
    let (v, c) ← Json.nullOr Json.word64 c
    return ({ config with maxFileSize := v }, c)
  | .time =>
    let (v, c) ← Json.nullOr Json.boolean c
    return ({ config with time := v }, c)

/-- What is expected where something else than settings stands. -/
def expectation : String := "struct Config"

/-- The list form, from after its opening bracket; `n` fields have been read. -/
def readList (config : Config) (n : Nat) (fields : List Field) (c : Cursor) :
    Except Error (Config × Cursor) :=
  match fields with
  | [] => do return (config, ← Json.listEnd c)
  | f :: fields => do
    let (more, c) ← Json.nextElement (n == 0) c
    if more then
      let (config, c) ← readField config f c
      readList config (n + 1) fields c
    else c.bump.fail (.wrongLength n (expectation ++ " with 3 elements"))

/-- The object form, from after its opening brace or after a value; `left` are the
fields that have not been read. -/
def readObject (config : Config) (first : Bool) (left : List Field) (c : Cursor) :
    Except Error (Config × Cursor) := do
  let (key, c) ← Json.nextKey first c
  match key with
  | none => return (config, c.bump)
  | some key =>
    match Field.ofName? key with
    | none => Json.objectFault (.unknownField key (Field.all.map Field.name)) c
    | some f =>
      if h : f ∈ left then
        let (config, c) ← readField config f (← Json.colon c)
        have : (left.erase f).length < left.length := by
          have := List.length_pos_of_mem h
          rw [List.length_erase_of_mem h]; omega
        readObject config false (left.erase f) c
      else Json.objectFault (.duplicateField key) c
termination_by left.length

/-- The settings that a text holds. -/
def read (text : String) : Except Error Config := do
  let (d, c) ← Json.value (.ofText text.toList)
  let (config, c) ←
    if d = '[' then readList unset 0 Field.all c.bump
    else if d = '\x7b' then readObject unset true Field.all c.bump
    else Json.unexpected expectation c
  let c := c.skipBlank
  if c.rest = [] then return config else c.failAhead .trailingCharacters

end SourceTokens.Config

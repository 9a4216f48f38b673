/-
# `SourceTokens.Config.Format` — output formats

Tokens are printed in one of three formats.  What a format is called is settled three times,
for being shown (`Format.name`), for the command line (`Format.read`) and for settings
(`Format.key`).  All three call it the same (`Format.read_eq_ok_iff`, `Format.key_eq_name`).
-/

namespace SourceTokens

/-- How tokens are printed. -/
inductive Format
  /-- One token on a line. -/
  | lines
  /-- Each distinct token once, with its count. -/
  | counts
  /-- One document for all files. -/
  | json
  deriving DecidableEq, Repr

namespace Format

/-- Every format. -/
def all : List Format := [lines, counts, json]

/-- The format used when none is asked for. -/
def default : Format := lines

/-- What a format is shown as. -/
def name : Format → String
  | lines => "lines"
  | counts => "counts"
  | json => "json"

/-! ## On the command line -/

/-- The complaint about a name that is no format's. -/
def unknownMessage (s : String) : String :=
  "unknown output format `" ++ s ++ "` (expected lines, counts or json)"

/-- A name that is no format's. -/
structure Unknown where
  name : String
  deriving DecidableEq, Repr

/-- The fault in words. -/
def Unknown.message (u : Unknown) : String := unknownMessage u.name

/-- The format of a name, or the name if it is no format's. -/
def read (s : String) : Except Unknown Format :=
  match s with
  | "lines" => .ok lines
  | "counts" => .ok counts
  | "json" => .ok json
  | other => .error ⟨other⟩

/-! ## In settings -/

/-- The name of the constructor. -/
def variant : Format → String
  | lines => "Lines"
  | counts => "Counts"
  | json => "Json"

/-- What settings call a format: its constructor, in small letters. -/
def key (f : Format) : String := String.ofList (f.variant.toList.map Char.toLower)

/-- The format that settings call so. -/
def ofKey? (s : String) : Option Format := all.find? (·.key == s)

/-! ## The same names everywhere -/

theorem key_eq_name (f : Format) : f.key = f.name := by cases f <;> rfl

theorem read_eq_ok_iff {s : String} {f : Format} : read s = .ok f ↔ f.name = s := by
  constructor
  · intro h
    rw [read.eq_def] at h
    split at h
    case h_4 => cases h
    all_goals
      cases h
      rfl
  · rintro rfl
    cases f <;> rfl

theorem ofKey?_eq_some_iff {s : String} {f : Format} : ofKey? s = some f ↔ s = f.name := by
  constructor
  · intro h
    have hf : f.key = s := by simpa using List.find?_some h
    rw [← hf, key_eq_name]
  · rintro rfl
    cases f <;> rfl

theorem ofKey?_name (f : Format) : ofKey? f.name = some f := ofKey?_eq_some_iff.mpr rfl

end Format

end SourceTokens

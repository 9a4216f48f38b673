/-
# `SourceTokens.Output` — printing the tokens of files

What is printed for the files that could be read, in each of the formats.  The two
text formats head each file with its name when there are several.
-/
import SourceTokens.Config.Format
import SourceTokens.Counts
import SourceTokens.Json.Value

namespace SourceTokens

/-- A file and the texts of its tokens. -/
structure FileTokens where
  file : String
  tokens : List String
  deriving DecidableEq, Repr

namespace Output

/-- The line that names a file. -/
def header (file : String) : String := "==> " ++ file ++ " <==\n"

/-- One token on a line. -/
def tokenLines (tokens : List String) : String :=
  String.join (tokens.map (· ++ "\n"))

/-- One distinct token on a line, after its count. -/
def countLines (tokens : List String) : String :=
  String.join ((Counts.ofList tokens).map fun (t, n) => toString n ++ "\t" ++ t ++ "\n")

/-- The files one after the other, headed by their names if there are several. -/
def sections (body : List String → String) (files : List FileTokens) : String :=
  let headed := 1 < files.length
  String.join (files.map fun f => (if headed then header f.file else "") ++ body f.tokens)

/-- The files as one document. -/
def document (files : List FileTokens) : Json.Value :=
  .array (files.map fun f =>
    .object [("file", .string f.file), ("tokens", .array (f.tokens.map .string))])

/-- What is printed. -/
def render : Format → List FileTokens → String
  | .lines, files => sections tokenLines files
  | .counts, files => sections countLines files
  | .json, files => (document files).indented ++ "\n"

end Output

end SourceTokens

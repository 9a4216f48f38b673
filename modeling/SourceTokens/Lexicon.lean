/-
# `SourceTokens.Lexicon` — the expressions of the token grammar

One heuristic grammar serves sources of every language.  Its classes are ASCII:
a blank is one of five characters, a word character a letter, a digit or the
underscore.  Beside each expression stands its pattern text, which reads back as
the expression (`read_patternTexts`).

None of the expressions that begin a token is nullable, so every rule that
applies reads something.
-/
import SourceTokens.Pattern

namespace SourceTokens.Lexicon

open SourceTokens.Regex

/-! ## Classes -/

/-- `[\t\n\f\r ]` -/
def blank : Regex.Class := .ofList ['\t', '\n', '\x0c', '\r', ' ']

/-- `[^\t\n\f\r ]` -/
def nonBlank : Regex.Class := .compl blank

/-- `[0-9]` -/
def digit : Regex.Class := .unions [.range '0' '9']

/-- `[0-9A-Za-z_]` -/
def wordChar : Regex.Class :=
  .unions [.range '0' '9', .range 'A' 'Z', .range 'a' 'z', .char '_']

/-- `[0-9A-Za-z_.@#/*]` -/
def regularChar : Regex.Class :=
  .unions [.range '0' '9', .range 'A' 'Z', .range 'a' 'z', .char '_', .char '.',
    .char '@', .char '#', .char '/', .char '*']

/-! ## The main loop -/

/-- `#!.+`, an interpreter line. -/
def interpreterLine : Regex := concat [char '#', char '!', plus (one .notNewline)]

/-- `\n|\z` -/
def lineEnd : Regex := oneOf [char '\n', assert .textEnd]

/-- `[\t\n\f\r ]*(?:// |-- |# |% |" )`, what begins a comment up to the end of its
line. -/
def lineComment : Regex :=
  concat [star (one blank),
    oneOf [text "// ", text "-- ", text "# ", text "% ", text "\" "]]

/-- The brackets of block comments. -/
def blockBrackets : List (String × String) :=
  [("/*", "*/"), ("<!--", "-->"), ("\x7b-", "-\x7d"), ("(*", "*)"),
    ("\"\"\"", "\"\"\""), ("\'\'\'", "\'\'\'")]

/-- `/\*|<!--|\{-|\(\*|"""|'''`, what opens a block comment. -/
def blockOpening : Regex := oneOf (blockBrackets.map fun b => text b.1)

/-- What closes the block comment that `opening` opened. -/
def blockClosing? (opening : String) : Option Regex :=
  (blockBrackets.lookup opening).map text

/-- `[^\\]"` or `[^\\]'`, the end of a string that is not empty: its quote, after a
character that is no backslash. -/
def stringEnd (quote : Char) : Regex :=
  concat [one (.compl (.unions [.char '\\'])), char quote]

/-- `(?:0x)?[0-9][0-9.]*`, a number. -/
def number : Regex :=
  concat [opt (text "0x"), one digit, star (one (.unions [.range '0' '9', .char '.']))]

/-- `<[^\t\n\f\r <>][^<>]*>`, what looks like a tag. -/
def tagSpan : Regex :=
  concat [char '<', one (.compl (.ofList ['\t', '\n', '\x0c', '\r', ' ', '<', '>'])),
    star (one (.compl (.ofList ['<', '>']))), char '>']

/-- `[;{}()\[\]]` -/
def punctuation : Regex := one (.ofList [';', '\x7b', '\x7d', '(', ')', '[', ']'])

/-- `[0-9A-Za-z_.@#/*]+`, a word of the source. -/
def regular : Regex := plus (one regularChar)

/-- `<<?|\+|-|\*|/|%|&&?|\|\|?`, an operator. -/
def operator : Regex :=
  oneOf [concat [char '<', opt (char '<')], char '+', char '-', char '*', char '/',
    char '%', concat [char '&', opt (char '&')], concat [char '|', opt (char '|')]]

/-! ## Inside a tag -/

/-- `</?[^\t\n\f\r >]+`, the name of a tag with the bracket before it. -/
def tagOpening : Regex :=
  concat [char '<', opt (char '/'),
    plus (one (.compl (.ofList ['\t', '\n', '\x0c', '\r', ' ', '>'])))]

/-- `[0-9A-Za-z_]+`, a name. -/
def identifier : Regex := plus (one wordChar)

/-- `[0-9A-Za-z_]+=`, the name of an attribute that has a value. -/
def assignment : Regex := concat [identifier, char '=']

/-! ## Inside an interpreter line -/

/-- `#![\t\n\f\r ]*` -/
def interpreterMark : Regex := concat [char '#', char '!', star (one blank)]

/-- `[\t\n\f\r ]+` -/
def blanks : Regex := plus (one blank)

/-- `[^\t\n\f\r ]+` -/
def nonBlanks : Regex := plus (one nonBlank)

/-- `.*=[^\t\n\f\r ]+[\t\n\f\r ]+`, settings of the environment, through the blanks
after the last one of the line. -/
def settings : Regex :=
  concat [star (one .notNewline), char '=', nonBlanks, blanks]

/-! ## Pattern texts -/

/-- The pattern texts of the grammar, each with its expression. -/
def patternTexts : List (String × Regex) :=
  [("#!.+", interpreterLine),
    ("\\n|\\z", lineEnd),
    ("[\\t\\n\\f\\r ]*(?:// |-- |# |% |\" )", lineComment),
    ("/\\*|<!--|\\\x7b-|\\(\\*|\"\"\"|'''", blockOpening),
    ("\\*/", text "*/"),
    ("-->", text "-->"),
    ("-\\\x7d", text "-\x7d"),
    ("\\*\\)", text "*)"),
    ("\"\"\"", text "\"\"\""),
    ("'''", text "'''"),
    ("\"", char '"'),
    ("[^\\\\]\"", stringEnd '"'),
    ("'", char '\''),
    ("[^\\\\]'", stringEnd '\''),
    ("(?:0x)?[0-9][0-9.]*", number),
    ("<[^\\t\\n\\f\\r <>][^<>]*>", tagSpan),
    ("[;\x7b\x7d()\\[\\]]", punctuation),
    ("[0-9A-Za-z_.@#/*]+", regular),
    ("<<?|\\+|-|\\*|/|%|&&?|\\|\\|?", operator),
    ("</?[^\\t\\n\\f\\r >]+", tagOpening),
    ("[0-9A-Za-z_]+=", assignment),
    ("[0-9A-Za-z_]+", identifier),
    ("#![\\t\\n\\f\\r ]*", interpreterMark),
    ("[\\t\\n\\f\\r ]+", blanks),
    ("[^\\t\\n\\f\\r ]+", nonBlanks),
    (".*=[^\\t\\n\\f\\r ]+[\\t\\n\\f\\r ]+", settings)]

theorem read_patternTexts :
    ∀ p ∈ patternTexts, (Pattern.read p.1).toOption = some ⟨p.1, p.2⟩ := by
  decide +kernel

end SourceTokens.Lexicon

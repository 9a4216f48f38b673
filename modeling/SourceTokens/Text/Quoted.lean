/-
# `SourceTokens.Text.Quoted` — text between double quotes

The form in which patterns and scanners show a text: everything stands for
itself but the double quote, the backslash, four characters that have a letter
of their own, and the concealed characters, which are written by number.
-/
import SourceTokens.Text.Hexadecimal
import SourceTokens.Text.Property.Concealed

namespace SourceTokens.Text.Quoted

/-- The written form of one character. -/
def encodeChar (c : Char) : List Char :=
  match c with
  | '\x00' => ['\\', '0']
  | '\t' => ['\\', 't']
  | '\n' => ['\\', 'n']
  | '\r' => ['\\', 'r']
  | '"' => ['\\', '"']
  | '\\' => ['\\', '\\']
  | c =>
    if isConcealed c then ['\\', 'u', '\x7b'] ++ Hexadecimal.digits c.toNat ++ ['\x7d']
    else [c]

/-- The written form of a text, quotes included. -/
def encode (s : List Char) : List Char :=
  '"' :: s.flatMap encodeChar ++ ['"']

end SourceTokens.Text.Quoted

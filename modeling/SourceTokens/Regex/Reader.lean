/-
# `SourceTokens.Regex.Reader` — reading the text of a pattern

A pattern text is read in two passes: it is cut into pieces, and the pieces are put
together.  A piece does not look past its own end, but for a question mark that makes a
repetition lazy or a group special, a brace behind `\b`, and the end of the text, which ends
a comment.

    pattern     branch | branch | …            branches may be empty
    branch      item item …
    item        atom, a change of flags, or an atom or a repetition followed by
                ? * + {n} {n,} {n,m}  and possibly  ?  for the lazy form
    atom        ( pattern )   (?flags: pattern )   (?<name> pattern )   (?P<name> pattern )
                [ class ]   .  ^  $  \escape
                or any other character but  ? * + { ) | [
    flags       letters of  i m s R U u x,  possibly a hyphen and letters to turn off;
                (?flags)  changes them from there on
    escape      d s w D S W  a f n r t v  A z b B < >  b{start} b{end} b{start-half}
                b{end-half}  xHH uHHHH UHHHHHHHH x{H…} u{H…} U{H…}  pL p{name} p{name=value}
                and P  or an ASCII character that is no letter and no digit
    class       possibly ^, then characters, escapes, ranges, [:name:], classes, and
                && -- ~~  between operands

In a verbose pattern, blanks and comments may stand nearly anywhere, also in classes, and
stand for nothing.  Bounds on the size of a pattern and on the depth of its groups are left
out.
-/
import SourceTokens.Regex.Assembly

namespace SourceTokens.Regex

/-- The expression that a pattern text writes. -/
def ofPattern (data : CharacterData) (s : List Char) : Except Malformed Regex := do
  assemble data (← pieces .start s).1

/-- Whether a pattern text ends in a comment. -/
def EndsInComment (s : List Char) : Prop := ∃ ps, pieces .start s = .ok (ps, true)

end SourceTokens.Regex

import SourceTokens.Files.Tree
import SourceTokens.Pattern
import SourceTokens.Proofs.Alphabet
import SourceTokens.Proofs.Blank
import SourceTokens.Proofs.CarriageReturn
import SourceTokens.Proofs.Concatenation
import SourceTokens.Proofs.Contents
import SourceTokens.Proofs.JsonOutput
import SourceTokens.Proofs.LineStart
import SourceTokens.Proofs.Lines
import SourceTokens.Proofs.Markup
import SourceTokens.Proofs.Precedence
import SourceTokens.Proofs.Program
import SourceTokens.Proofs.Provenance
import SourceTokens.Proofs.Rounds
import SourceTokens.Proofs.Searching
import SourceTokens.Proofs.Session
import SourceTokens.Proofs.Spans
import SourceTokens.Proofs.TextOutput
import SourceTokens.Run
import SourceTokens.Proofs.Literals
import SourceTokens.Proofs.Wrapping
import SourceTokens.Proofs.Words
import SourceTokens.Proofs.Environment
import SourceTokens.Proofs.Loading
import SourceTokens.Proofs.Attribution
import SourceTokens.Proofs.Layers
import SourceTokens.Proofs.Lookahead
import SourceTokens.Proofs.FormatNames
import SourceTokens.Regex.Flags
import SourceTokens.Regex.Input
import SourceTokens.Regex.Piece

import MonkeySyntax.CommandLine.Disk
import MonkeySyntax.Main
import MonkeySyntax.Proofs.Cursor.Alike
import MonkeySyntax.Proofs.Cursor.Mirror
import MonkeySyntax.Proofs.Cursor.Nesting
import MonkeySyntax.Proofs.Diagnostic.Report
import MonkeySyntax.Proofs.Numeral
import MonkeySyntax.Proofs.Parser.Append
import MonkeySyntax.Proofs.Parser.Complete
import MonkeySyntax.Proofs.Parser.Diagnosis
import MonkeySyntax.Proofs.Parser.FirstFault
import MonkeySyntax.Proofs.Parser.Frame
import MonkeySyntax.Proofs.Parser.Joined
import MonkeySyntax.Proofs.Parser.Layout
import MonkeySyntax.Proofs.Parser.Mirror
import MonkeySyntax.Proofs.Parser.Nodes
import MonkeySyntax.Proofs.Parser.Precedence
import MonkeySyntax.Proofs.Parser.Recovery
import MonkeySyntax.Proofs.Parser.Run
import MonkeySyntax.Proofs.Parser.Segments
import MonkeySyntax.Proofs.Parser.Sound
import MonkeySyntax.Proofs.Parser.Stream
import MonkeySyntax.Proofs.Parser.Termination
import MonkeySyntax.Proofs.Productions.Sight
import MonkeySyntax.Proofs.Productions.Viable
import MonkeySyntax.Proofs.Render.Copy
import MonkeySyntax.Proofs.Render.RoundTrip
import MonkeySyntax.Proofs.Scanner.Lines
import MonkeySyntax.Proofs.Text.Search
import MonkeySyntax.Proofs.Written.Begins
import MonkeySyntax.Proofs.Written.Enclosed
import MonkeySyntax.Token.Lexer
import MonkeySyntax.Token.Queue
import MonkeySyntax.Token.Scanner.Progress
import MonkeySyntax.Tree.Equality

import Pseudocode.Main
import Pseudocode.Workload
import Pseudocode.Proofs.Isolation
import Pseudocode.Proofs.Case.Selection
import Pseudocode.Proofs.Condition
import Pseudocode.Proofs.Lines.Separate
import Pseudocode.Proofs.Return.Immediate
import Pseudocode.Proofs.Typing
import Pseudocode.Proofs.CallEffect
import Pseudocode.Proofs.Depth
import Pseudocode.Proofs.Lines.Semicolon
import Pseudocode.Proofs.Sequence
import Pseudocode.Proofs.Shape.Session
import Pseudocode.Proofs.Limit
import Pseudocode.Proofs.Lexeme
import Pseudocode.Proofs.Segment
import Pseudocode.Proofs.Lines.Break
import Pseudocode.Proofs.Expression
import Pseudocode.Proofs.Expression.Parse
import Pseudocode.Proofs.Element.Access
import Pseudocode.Proofs.Element.Failure
import Pseudocode.Proofs.UnsavedText
import Pseudocode.Proofs.Highlight.Agreement
import Pseudocode.Proofs.Highlight.Regex
import Pseudocode.Proofs.Nesting
import Pseudocode.Proofs.Nesting.Copy
import Pseudocode.Proofs.Element.Sharing
import Pseudocode.Proofs.Nesting.Arguments
import Pseudocode.Proofs.Nesting.Equality
import Pseudocode.Proofs.CountedLoop
import Pseudocode.Proofs.Quotation
import Pseudocode.Proofs.Console
import Pseudocode.Proofs.Settings.Members
import Pseudocode.Proofs.Settings.Defaults
import Pseudocode.Proofs.Highlight.Layers
import Pseudocode.Proofs.Settings.Abandon
import Pseudocode.Proofs.Json.Leaves
import Pseudocode.Proofs.Json.RoundTrip
import Pseudocode.Proofs.Disk
import Pseudocode.Proofs.Settings.Restart
import Pseudocode.Proofs.Library.Parts
import Pseudocode.Proofs.Number.Whole
import Pseudocode.Proofs.Library.Mathematics
import Pseudocode.Proofs.Library.Factorial
import Pseudocode.Proofs.Parser.Cursor
import Pseudocode.Proofs.Brackets.Lookahead
import Pseudocode.Proofs.Inversion
import Pseudocode.Proofs.Library.Splitting

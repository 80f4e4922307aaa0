import ExprFront.Main
import ExprFront.Proofs.Parse.Locality
import ExprFront.Proofs.Grammar.Phrase
import ExprFront.Proofs.Tree.Unplaced
import ExprFront.Proofs.Grammar.Reading
import ExprFront.Proofs.Grammar.Tracking
import ExprFront.Proofs.Grammar.Exact
import ExprFront.Proofs.Grammar.Written
import ExprFront.Proofs.Number.Decimal
import ExprFront.Proofs.Scan.Lexeme
import ExprFront.Proofs.Scan.Division
import ExprFront.Proofs.Grammar.Earliest
import ExprFront.Proofs.Grammar.Expected
import ExprFront.Proofs.Grammar.Chains
import ExprFront.Proofs.Parse.Climbing
import ExprFront.Proofs.Scan.Positions
import ExprFront.Proofs.Grammar.Nesting
import ExprFront.Proofs.Parse.Passing
import ExprFront.Proofs.Grammar.Depth
import ExprFront.Proofs.Grammar.Asking
import ExprFront.Proofs.Grammar.Limit
import ExprFront.Proofs.Grammar.Standing
import ExprFront.Proofs.Scan.Joining
import ExprFront.Proofs.Grammar.Ordered
import ExprFront.Proofs.Tree.Concrete
import ExprFront.Proofs.Parse.Relabelling
import ExprFront.Proofs.Grammar.Sequencing
import ExprFront.Proofs.Scan.Moves
import ExprFront.Proofs.Parse.Calls
import ExprFront.Proofs.Parse.Kinds
import ExprFront.Proofs.Cli.Agreement
import ExprFront.Proofs.Scan.Lookahead
import ExprFront.Proofs.Scan.Cutting
import ExprFront.Proofs.Scan.Stepping
import ExprFront.Proofs.Scan.Spacing
import ExprFront.Proofs.Grammar.Ending
import ExprFront.Proofs.Grammar.Commas
import ExprFront.Proofs.Tree.Fields
import ExprFront.Proofs.Tree.Decoding
import ExprFront.Proofs.Number.ReadBack
import ExprFront.Proofs.Text.Unquoting
import ExprFront.Proofs.Tree.Labels
import ExprFront.Proofs.Tree.Lines
import ExprFront.Proofs.Tree.Outlines
import ExprFront.Proofs.Text.Encoding
import ExprFront.Proofs.Grammar.Stopping
import ExprFront.Proofs.Parse.Embedding
import ExprFront.Proofs.Cli.Statuses
import ExprFront.Proofs.Scan.Returns
import ExprFront.Proofs.Cli.Sources

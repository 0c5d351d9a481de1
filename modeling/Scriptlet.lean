import Scriptlet.Main
import Scriptlet.Proofs.Evaluation.Session
import Scriptlet.Proofs.Grammar.Derivation
import Scriptlet.Proofs.Program.RoundTrip
import Scriptlet.Proofs.Program.Depth
import Scriptlet.Proofs.Token.Continued
import Scriptlet.Proofs.Evaluation.Invariant
import Scriptlet.Proofs.Program.Pieces
import Scriptlet.Proofs.Json.Fields
import Scriptlet.Proofs.Tree.Renamed
import Scriptlet.Proofs.Tree.Decoded
import Scriptlet.Proofs.Tree.Finite
import Scriptlet.Proofs.Program.Decoding
import Scriptlet.Proofs.Json.Numeral
import Scriptlet.Proofs.Json.Values
import Scriptlet.Proofs.Json.Written
import Scriptlet.Proofs.Tree.Levels
import Scriptlet.Proofs.CommandLine.TreeFile
import Scriptlet.Proofs.Grammar.Limit
import Scriptlet.Proofs.Grammar.Lookahead
import Scriptlet.Proofs.Grammar.ValidPrefix
import Scriptlet.Proofs.Token.Placed
import Scriptlet.Proofs.Evaluation.Machine
import Scriptlet.Proofs.Evaluation.Watched
import Scriptlet.Proofs.Evaluation.DepthLimit
import Scriptlet.Proofs.Evaluation.Traced
import Scriptlet.Proofs.Evaluation.Unnamed
import Scriptlet.Proofs.Evaluation.Coupling
import Scriptlet.Proofs.Evaluation.Footprint
import Scriptlet.Proofs.Evaluation.Agreement
import Scriptlet.Proofs.Evaluation.RootBlock
import Scriptlet.Proofs.Program.Targets
import Scriptlet.Proofs.Token.Numeral
import Scriptlet.Proofs.Token.Spelling
import Scriptlet.Proofs.Token.Longest
import Scriptlet.Proofs.Grammar.Kinds
import Scriptlet.Proofs.Token.Layout
import Scriptlet.Proofs.Token.Unreadable
import Scriptlet.Proofs.Program.Layout
import Scriptlet.Proofs.Program.Parentheses
import Scriptlet.Proofs.CommandLine.Globals
import Scriptlet.Proofs.Evaluation.Comparison
import Scriptlet.Proofs.Evaluation.UnitValue
import Scriptlet.Proofs.Grammar.EndMark
import Scriptlet.Proofs.Evaluation.Nearest
import Scriptlet.Proofs.Evaluation.Unshadowed
import Scriptlet.Proofs.Grammar.Progress

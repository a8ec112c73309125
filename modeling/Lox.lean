import Lox.Main
import Lox.Parse.Parser
import Lox.Proofs.Execution.Arithmetic
import Lox.Proofs.Execution.Brackets
import Lox.Proofs.Execution.Comparisons
import Lox.Proofs.Execution.Origins
import Lox.Proofs.Grammar.Boundaries
import Lox.Proofs.Grammar.Nesting
import Lox.Proofs.Grammar.Progress
import Lox.Proofs.Grammar.Recovery
import Lox.Proofs.Notation.Readability
import Lox.Proofs.Raw.Stages
import Lox.Proofs.Scanning.Comments
import Lox.Proofs.Scanning.Foreign
import Lox.Proofs.Scanning.Literals
import Lox.Proofs.Session.History
import Lox.Proofs.Session.Layout
import Lox.Proofs.Session.Modes
import Lox.Proofs.Session.Names
import Lox.Proofs.Session.Printing
import Lox.Proofs.Execution.Failures
import Lox.Proofs.Session.Places

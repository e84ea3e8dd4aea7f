import SExpr.Datum.Map
import SExpr.Datum.Walk
import SExpr.Main
import SExpr.Proofs.BareAtom
import SExpr.Proofs.Checked.Sessions
import SExpr.Proofs.ClosingQuote
import SExpr.Proofs.Completion
import SExpr.Proofs.Correspondence
import SExpr.Proofs.Cursor
import SExpr.Proofs.DepthLimit
import SExpr.Proofs.EmptyLiteral
import SExpr.Proofs.Enclosing
import SExpr.Proofs.Faults
import SExpr.Proofs.Grammar.Acceptance
import SExpr.Proofs.Grammar.Layout
import SExpr.Proofs.Grammar.Sizes
import SExpr.Proofs.Grammar.Writing
import SExpr.Proofs.LineEnds
import SExpr.Proofs.Message
import SExpr.Proofs.Progress
import SExpr.Proofs.Quoting
import SExpr.Proofs.Stack.Agreement
import SExpr.Proofs.Translation

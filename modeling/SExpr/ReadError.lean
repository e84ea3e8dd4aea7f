import SExpr.QuoteMark
import SExpr.Text.Position

namespace SExpr

/-- Why a text could not be read. Where a character is expected, `none` stands for the end of
the text. -/
inductive Fault where
  | unterminatedLiteral
  | nothingMarked (mark : QuoteMark) (seen : Option Char)
  /-- A list was asked for where none begins. -/
  | missingOpening (seen : Option Char)
  /-- A list goes on with something that is no expression. -/
  | missingClosing (seen : Option Char)
  | superfluous (seen : Char)
  | tooDeep
  deriving DecidableEq

namespace Fault

def showSeen : Option Char → String
  | some c => c.toString
  | none => "null"

def message : Fault → String
  | .unterminatedLiteral => "Syntax Error: Unterminated string literal"
  | .nothingMarked mark seen => s!"Syntax Error: Unexpected {showSeen seen} after {mark.sign}"
  | .missingOpening seen => s!"Syntax Error: Expected ( - saw {showSeen seen} instead."
  | .missingClosing seen => s!"Syntax Error: Expected ) - saw: {showSeen seen}"
  | .superfluous seen =>
    s!"Syntax error: Superfluous characters after expression: {seen}"
  | .tooDeep => "Syntax Error: Nesting too deep"

end Fault

/-- A fault and the position where reading stopped. -/
structure ReadError where
  fault : Fault
  position : Position
  deriving DecidableEq

def ReadError.message (e : ReadError) : String :=
  s!"{e.fault.message} {e.position.render}"

end SExpr

import SExpr.Production.Expression

namespace SExpr

def textEnd : Production Unit
  | [] => .ok () []
  | u :: rest => .error (.superfluous u.first) (u :: rest)

/-- Exactly one expression. A text in which there is none at all is the empty atom. -/
def document (options : ReadOptions) : Production Datum := fun text =>
  match exprAt options options.maxDepth text with
  | .ok datum? rest => (textEnd rest).map fun _ => datum?.getD (.atom "")
  | .error fault rest => .error fault rest

end SExpr

import SExpr.Datum.Basic
import SExpr.Text.Quoted

namespace SExpr.Datum

def indented (width : Nat) (line : String) : String :=
  "".pushn ' ' width ++ line

mutual

/-- Adds the dump of a datum to `out`, without a line end. -/
def dumpTo (out : String) (width : Nat) : Datum → String
  | .atom text =>
    out ++ indented width "Atom(\n" ++ indented (width + 4) (quoted text) ++ ",\n" ++
      indented width ")"
  | .list [] =>
    out ++ indented width "List(\n" ++ indented (width + 4) "[],\n" ++ indented width ")"
  | .list (d :: items) =>
    dumpItemsTo
        (dumpTo (out ++ indented width "List(\n" ++ indented (width + 4) "[\n") (width + 8) d ++
          ",\n")
        (width + 8) items ++
      indented (width + 4) "],\n" ++ indented width ")"

def dumpItemsTo (out : String) (width : Nat) : List Datum → String
  | [] => out
  | d :: items => dumpItemsTo (dumpTo out width d ++ ",\n") width items

end

/-- The tree on lines of its own: brackets and texts, each level four columns deeper. -/
def dump (d : Datum) : String :=
  dumpTo "" 0 d

end SExpr.Datum

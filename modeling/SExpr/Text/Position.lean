import SExpr.Text.Unit

namespace SExpr

/-- A place in a text: the line breaks before it, and the characters since the last of them. Both
count from zero inside and from one where they are shown. -/
structure Position where
  line : Nat
  column : Nat
  deriving DecidableEq

namespace Position

def start : Position := ⟨0, 0⟩

/-- The position behind a unit that begins at `p`. -/
def after (p : Position) (u : TextUnit) : Position :=
  if u.endsLine then ⟨p.line + 1, 0⟩ else ⟨p.line, p.column + 1⟩

def lineNumber (p : Position) : Nat := p.line + 1

def columnNumber (p : Position) : Nat := p.column + 1

def render (p : Position) : String :=
  s!"line: {p.lineNumber} col: {p.columnNumber}"

end Position

end SExpr

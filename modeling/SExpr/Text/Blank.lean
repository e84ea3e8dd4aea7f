import SExpr.Text.CodeRange

/-!
# Blank characters

The characters that separate atoms. The class contains the byte order mark U+FEFF and leaves
out the control character U+0085.
-/

namespace SExpr

/-- Tab to carriage return, the spaces of all widths, the line and paragraph separators, and
the byte order mark. -/
def blankRanges : List CodeRange :=
  [⟨0x09, 0x0d⟩, ⟨0x20, 0x20⟩, ⟨0xa0, 0xa0⟩, ⟨0x1680, 0x1680⟩, ⟨0x2000, 0x200a⟩,
    ⟨0x2028, 0x2029⟩, ⟨0x202f, 0x202f⟩, ⟨0x205f, 0x205f⟩, ⟨0x3000, 0x3000⟩, ⟨0xfeff, 0xfeff⟩]

def isBlank (c : Char) : Bool :=
  blankRanges.any (·.contains c)

example : isBlank '\ufeff' = true ∧ isBlank '\u0085' = false := by decide

end SExpr


namespace SExpr

structure ReadOptions where
  /-- The text that an empty string literal is read as. -/
  emptyLiteral : String := " "
  /-- How many lists and marked expressions may be inside one another. -/
  maxDepth : Nat := 500

namespace ReadOptions

/-- An empty string literal is read as a single space, and 500 levels may nest. -/
def standard : ReadOptions := {}

def plainLiterals : ReadOptions := { emptyLiteral := "" }

/-- The text of a string literal that is made of the characters `content`. -/
def literalText (options : ReadOptions) (content : List Char) : String :=
  match content with
  | [] => options.emptyLiteral
  | content => String.ofList content

theorem literalText_eq_ite (options : ReadOptions) (content : List Char) :
    options.literalText content =
      if content = [] then options.emptyLiteral else String.ofList content := by
  cases content with
  | nil => rfl
  | cons c content => rfl

end ReadOptions

end SExpr

import SExpr.Text.Blank

/-!
# Units of text

A carriage return and the line feed right after it are one unit, so no walk through a text stops
between the two.
-/

namespace SExpr

/-- What one step through a text takes: a character, or a carriage return with its line feed. -/
inductive TextUnit where
  | char (c : Char)
  | crlf
  deriving DecidableEq

namespace TextUnit

def chars : TextUnit → List Char
  | .char c => [c]
  | .crlf => ['\r', '\n']

/-- The first character of the unit, the one that look-ahead sees. -/
def first : TextUnit → Char
  | .char c => c
  | .crlf => '\r'

def utf8Size : TextUnit → Nat
  | .char c => c.utf8Size
  | .crlf => 2

/-- A line ends at a line feed, at a carriage return, and at the two together. -/
def endsLine : TextUnit → Bool
  | .char c => c == '\n' || c == '\r'
  | .crlf => true

def cons (c : Char) (units : List TextUnit) : List TextUnit :=
  match c, units with
  | '\r', .char '\n' :: rest => .crlf :: rest
  | c, units => .char c :: units

@[simp] theorem first_char (c : Char) : (char c).first = c := rfl

@[simp] theorem chars_char (c : Char) : (char c).chars = [c] := rfl

@[simp] theorem chars_crlf : crlf.chars = ['\r', '\n'] := rfl

def split (text : List Char) : List TextUnit :=
  text.foldr cons []

def join (units : List TextUnit) : List Char :=
  units.flatMap chars

@[simp] theorem join_nil : join [] = [] := rfl

@[simp] theorem join_cons (u : TextUnit) (units : List TextUnit) :
    join (u :: units) = u.chars ++ join units := rfl

@[simp] theorem join_append (before after : List TextUnit) :
    join (before ++ after) = join before ++ join after :=
  List.flatMap_append

theorem join_cons_char (c : Char) (units : List TextUnit) :
    join (cons c units) = c :: join units := by
  unfold cons
  split <;> simp [chars]

@[simp] theorem join_split (text : List Char) : join (split text) = text := by
  induction text with
  | nil => rfl
  | cons c text ih => exact (join_cons_char c (split text)).trans (congrArg (c :: ·) ih)

end TextUnit

def peek? (text : List TextUnit) : Option Char :=
  text.head?.map TextUnit.first

def skipBlanks (text : List TextUnit) : List TextUnit :=
  text.dropWhile (isBlank ·.first)

end SExpr

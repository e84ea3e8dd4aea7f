import SExpr.Production.Outcome
import SExpr.ReadOptions

/-!
# Atoms

In a string literal five letters after a backslash stand for control characters. In a bare atom
every escaped unit stands for itself.
-/

namespace SExpr

/-- What a unit after a backslash stands for in a string literal. -/
def unescape (u : TextUnit) : List Char :=
  match u with
  | .char 'r' => ['\r']
  | .char 't' => ['\t']
  | .char 'n' => ['\n']
  | .char 'f' => ['\x0c']
  | .char 'b' => ['\x08']
  | u => u.chars

def stopsLiteral (c : Char) : Bool :=
  c == '"' || c == '\\'

/-- Reads on inside a string literal to its closing quote. `taken` holds the characters so
far, the last one first. -/
def literalFrom (taken : List Char) : Production (List Char)
  | [] => .error .unterminatedLiteral []
  | u :: rest =>
    if !stopsLiteral u.first then literalFrom (u.chars.reverse ++ taken) rest
    else if u.first = '"' then .ok taken.reverse rest
    else
      match rest with
      | [] => .error .unterminatedLiteral []
      | escaped :: rest => literalFrom ((unescape escaped).reverse ++ taken) rest

/-- A string literal. The unit in front is its opening quote and is passed over unseen. -/
def literal (options : ReadOptions) : Production String := fun text =>
  (literalFrom [] text.tail).map options.literalText

def stopsAtom (c : Char) : Bool :=
  isBlank c || c == '\\' || c == '"' || c == '(' || c == ')' || (QuoteMark.ofChar? c).isSome

/-- `taken` holds the characters so far, the last one first. A backslash at the end of the text is
passed over. -/
def bareFrom (taken : List Char) : List TextUnit → List Char × List TextUnit
  | [] => (taken.reverse, [])
  | u :: rest =>
    if !stopsAtom u.first then bareFrom (u.chars.reverse ++ taken) rest
    else if u.first = '\\' then
      match rest with
      | [] => (taken.reverse, [])
      | escaped :: rest => bareFrom (escaped.chars.reverse ++ taken) rest
    else (taken.reverse, u :: rest)

def bare? : Production (Option String) := fun text =>
  match bareFrom [] text with
  | ([], rest) => .ok none rest
  | (chars, rest) => .ok (some (String.ofList chars)) rest

/-- An atom; `none` if there is none here. A string literal counts as one even if empty. -/
def atom? (options : ReadOptions) : Production (Option String) := fun text =>
  if peek? text = some '"' then (literal options text).map some else bare? text

end SExpr

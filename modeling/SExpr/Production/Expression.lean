import SExpr.Datum.Basic
import SExpr.Production.Atom

/-!
# Expressions

Lists and marks are levels of nesting. A production here takes the one that reads expressions a
level further down as the argument `inner`; `none` stands for it where the depth limit is reached.
-/

namespace SExpr

/-- The mark that `text` begins with, and the text behind it. An at sign right after a comma
belongs to the mark. -/
def mark? (text : List TextUnit) : Option (QuoteMark × List TextUnit) :=
  match (peek? text).bind QuoteMark.ofChar?, text.tail with
  | none, _ => none
  | some .unquote, .char '@' :: rest => some (.unquoteSplicing, rest)
  | some mark, rest => some (mark, rest)

def markedWith (inner : Production (Option Datum)) (mark : QuoteMark) : Production Datum :=
  fun text =>
    match inner text with
    | .ok (some d) rest => .ok (.marked mark d) rest
    | .ok none rest => .error (.nothingMarked mark (peek? rest)) rest
    | .error fault rest => .error fault rest

/-- Expressions for as long as there are any. `items` holds those so far, the last one first.
Every expression takes up a unit at least, so the units of the text are `fuel` enough. -/
def itemsWith (inner : Production (Option Datum)) (items : List Datum) :
    (fuel : List TextUnit) → Production (List Datum)
  | [], text => .ok items.reverse text
  | _ :: fuel, text =>
    match inner text with
    | .ok (some d) rest => itemsWith inner (d :: items) fuel rest
    | .ok none rest => .ok items.reverse rest
    | .error fault rest => .error fault rest

/-- A list. The text has to begin with its opening parenthesis. -/
def listWith (inner : Option (Production (Option Datum))) : Production Datum := fun text =>
  match text, inner with
  | .char '(' :: _, none => .error .tooDeep text
  | .char '(' :: content, some inner =>
    match itemsWith inner [] content content with
    | .ok items (.char ')' :: rest) => .ok (.list items) rest
    | .ok _ rest => .error (.missingClosing (peek? rest)) rest
    | .error fault rest => .error fault rest
  | _, _ => .error (.missingOpening (peek? text)) text

/-- An expression and the blanks around it; `none` if there is none here. The blanks behind a marked
expression are part of the expression that is marked. -/
def exprWith (options : ReadOptions) (inner : Option (Production (Option Datum))) :
    Production (Option Datum) := fun text =>
  let text := skipBlanks text
  match mark? text, inner with
  | some _, none => .error .tooDeep text
  | some (mark, rest), some inner => (markedWith inner mark rest).map some
  | none, inner =>
    if peek? text = some '(' then ((listWith inner text).map some).skipBlanks
    else ((atom? options text).map (Option.map .atom)).skipBlanks

/-- An expression of at most `depth` levels; `none` if there is none here. -/
def exprAt (options : ReadOptions) : (depth : Nat) → Production (Option Datum)
  | 0, text => exprWith options none text
  | depth + 1, text => exprWith options (some (exprAt options depth)) text

section Levels

variable {options : ReadOptions} {holds : Nat → Production (Option Datum) → Prop}

/-- What expressions of `depth` levels have inside them: nothing at the limit, and else expressions
of one level less, of which `holds` is known. -/
inductive LevelBelow (options : ReadOptions) (holds : Nat → Production (Option Datum) → Prop) :
    Nat → Option (Production (Option Datum)) → Prop where
  | limit : LevelBelow options holds 0 none
  | level {depth : Nat} (known : holds depth (exprAt options depth)) :
      LevelBelow options holds (depth + 1) (some (exprAt options depth))

/-- Whatever one level passes on holds of expressions of any depth. -/
theorem exprAt_induction
    (step : ∀ {depth inner}, LevelBelow options holds depth inner →
      holds depth (exprWith options inner))
    (depth : Nat) : holds depth (exprAt options depth) := by
  induction depth with
  | zero => exact step .limit
  | succ depth ih => exact step (.level ih)

namespace LevelBelow

variable {depth : Nat} {inner : Option (Production (Option Datum))}

theorem all {property : Production (Option Datum) → Prop}
    (below : LevelBelow options holds depth inner)
    (h : ∀ lower, property (exprAt options lower)) : ∀ production ∈ inner, property production := by
  cases below with
  | limit => simp
  | level known => simpa using h _

theorem known {property : Production (Option Datum) → Prop}
    (below : LevelBelow options (fun _ => property) depth inner) :
    ∀ production ∈ inner, property production := by
  cases below with
  | limit => simp
  | level known => simpa using known

end LevelBelow

end Levels

def listAt (options : ReadOptions) : (depth : Nat) → Production Datum
  | 0 => listWith none
  | depth + 1 => listWith (some (exprAt options depth))

end SExpr

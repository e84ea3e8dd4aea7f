import SExpr.QuoteMark

/-!
# Data

Symbols, numbers and strings are not told apart, and a marked expression is the list that the mark
stands for.
-/

namespace SExpr

/-- A tree of texts. -/
inductive Datum where
  | atom (text : String)
  | list (items : List Datum)

namespace Datum

mutual

def decEq : (a b : Datum) → Decidable (a = b)
  | .atom s, .atom t => decidable_of_iff (s = t) (by simp)
  | .atom _, .list _ => isFalse (by simp)
  | .list _, .atom _ => isFalse (by simp)
  | .list xs, .list ys =>
    match decEqItems xs ys with
    | isTrue h => isTrue (congrArg Datum.list h)
    | isFalse h => isFalse (h <| Datum.list.inj ·)

def decEqItems : (xs ys : List Datum) → Decidable (xs = ys)
  | [], [] => isTrue rfl
  | [], _ :: _ => isFalse (by simp)
  | _ :: _, [] => isFalse (by simp)
  | x :: xs, y :: ys =>
    match decEq x y, decEqItems xs ys with
    | isTrue h, isTrue hs => isTrue (by rw [h, hs])
    | isFalse h, _ => isFalse fun e => h (List.cons.inj e).1
    | _, isFalse h => isFalse fun e => h (List.cons.inj e).2

end

instance : DecidableEq Datum := decEq

def pair (first second : Datum) : Datum :=
  .list [first, second]

def marked (mark : QuoteMark) (d : Datum) : Datum :=
  pair (.atom mark.name) d

theorem marked_eq (mark : QuoteMark) (d : Datum) : marked mark d = .list [.atom mark.name, d] :=
  rfl

def text? : Datum → Option String
  | .atom text => some text
  | .list _ => none

def items? : Datum → Option (List Datum)
  | .atom _ => none
  | .list items => some items

/-- The mark and the expression of a marked expression, also of one that is written as a
list. -/
def marked? : Datum → Option (QuoteMark × Datum)
  | .list [.atom name, d] => (QuoteMark.ofName? name).map (·, d)
  | _ => none

@[simp] theorem marked?_marked (mark : QuoteMark) (d : Datum) :
    (marked mark d).marked? = some (mark, d) := by
  simp [marked, pair, marked?]

/-- The text at the head of a list, and the empty text where no atom heads one. -/
def headText : Datum → String
  | .list (.atom text :: _) => text
  | _ => ""

end Datum

end SExpr

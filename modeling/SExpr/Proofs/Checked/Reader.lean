import SExpr.Proofs.Checked.Cursor

/-!
# Reading in machine words

The rounds of a loop are bounded by the text, and those into the levels by the word that counts them
down.
-/

namespace SExpr

structure WordOptions where
  emptyLiteral : String
  maxDepth : UInt32

def WordOptions.options (o : WordOptions) : ReadOptions :=
  ⟨o.emptyLiteral, o.maxDepth.toNat⟩

structure WordError where
  fault : Fault
  place : Place

def WordError.error (e : WordError) : ReadError :=
  ⟨e.fault, e.place.position⟩

/-- The error with its place as it is shown; `none` if the place cannot be. -/
def WordError.message? (e : WordError) : Option String :=
  e.place.render?.map fun place => s!"{e.fault.message} {place}"

/-- A part of the grammar as steps of a cursor, which stays where it stopped if an error ends
them. -/
abbrev Reading := ExceptT WordError Step

namespace Checked

open ByteCursor

def fail {α : Type} (fault : Fault) : Reading α := do
  throw ⟨fault, (← get).place⟩

/-- What comes of a loop that is not at its end after its rounds. -/
def unended {α : Type} : Reading α :=
  liftM (failure : Step α)

def escape? (c : Char) : Option Char :=
  match c with
  | 'r' => some '\r'
  | 't' => some '\t'
  | 'n' => some '\n'
  | 'f' => some '\x0c'
  | 'b' => some '\x08'
  | _ => none

def escaped : Step String := do
  let seen ← peek
  let unit ← next
  match seen.bind escape? with
  | some c => return .singleton c
  | none => return unit.getD ""

def literalFrom (options : WordOptions) : (rounds : Nat) → (taken : String) → Reading String
  | 0, _ => unended
  | rounds + 1, taken => do
    let taken := taken ++ (← takeUntil stopsLiteral)
    match ← peek with
    | none => fail .unterminatedLiteral
    | some '"' =>
      let _ ← next
      return options.options.literalText taken.toList
    | some _ =>
      let _ ← next
      literalFrom options rounds (taken ++ (← escaped))

def literal (options : WordOptions) : Reading String := do
  let _ ← next
  literalFrom options (← rounds) ""

def bareFrom : (rounds : Nat) → (taken : String) → Reading String
  | 0, _ => unended
  | rounds + 1, taken => do
    let taken := taken ++ (← takeUntil stopsAtom)
    if (← peek) = some '\\' then
      let _ ← next
      bareFrom rounds (taken ++ (← next).getD "")
    else return taken

def atom? (options : WordOptions) : Reading (Option String) := do
  if (← peek) = some '"' then return some (← literal options)
  else
    let taken ← bareFrom (← rounds) ""
    return if taken = "" then none else some taken

/-- The mark that begins with `mark`. -/
def wholeMark (mark : QuoteMark) : Step QuoteMark := do
  if mark = .unquote then
    if (← peek) = some '@' then
      let _ ← next
      return .unquoteSplicing
    else return mark
  else return mark

section Levels

variable (options : WordOptions) (inner : (depth : UInt32) → Reading (Option Datum))

def marked (mark : QuoteMark) (depth : UInt32) : Reading Datum := do
  if depth = 0 then fail .tooDeep
  else
    let _ ← next
    let mark ← wholeMark mark
    ByteCursor.skipBlanks
    match ← inner (← predecessor? depth) with
    | some d => return .marked mark d
    | none => fail (.nothingMarked mark (← peek))

def itemsFrom (depth : UInt32) : (rounds : Nat) → (taken : List Datum) → Reading (List Datum)
  | 0, _ => unended
  | rounds + 1, taken => do
    match ← inner (← predecessor? depth) with
    | some d => itemsFrom depth rounds (d :: taken)
    | none => return taken.reverse

def list (depth : UInt32) : Reading Datum := do
  if (← peek) = some '(' then
    if depth = 0 then fail .tooDeep
    else
      let _ ← next
      let items ← itemsFrom inner depth (← rounds) []
      if (← peek) = some ')' then
        let _ ← next
        return .list items
      else fail (.missingClosing (← peek))
  else fail (.missingOpening (← peek))

def unmarked? (depth : UInt32) : Reading (Option Datum) := do
  if (← peek) = some '(' then return some (← list inner depth)
  else return (← atom? options).map .atom

/-- An expression and the blanks around it; `none` if there is none. Those a level further down are
read by `inner`, which is told the levels that are left. -/
def exprWith (depth : UInt32) : Reading (Option Datum) := do
  ByteCursor.skipBlanks
  match (← peek).bind QuoteMark.ofChar? with
  | some mark => return some (← marked inner mark depth)
  | none =>
    let d? ← unmarked? options inner depth
    ByteCursor.skipBlanks
    return d?

end Levels

/-- An expression of at most `depth` levels, which is read at no more than `levels` of them. -/
def expr? (options : WordOptions) : (levels : Nat) → (depth : UInt32) → Reading (Option Datum)
  | 0 => exprWith options fun _ => unended
  | levels + 1 => exprWith options (expr? options levels)

def textEnd : Reading Unit := do
  match ← peek with
  | some c => fail (.superfluous c)
  | none => return

def answer (options : WordOptions) : (request : Request) → Reading request.Value
  | .expr => expr? options options.maxDepth.toNat options.maxDepth
  | .list => list (expr? options options.maxDepth.toNat) options.maxDepth
  | .atom => atom? options
  | .literal => literal options
  | .textEnd => textEnd

end Checked

end SExpr

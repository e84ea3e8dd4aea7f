import SExpr.Production.Document
import SExpr.Text.Cursor

/-!
# Readers

After an error a reader stays where it stopped and may be used further.
-/

namespace SExpr

/-- A cursor in the text that is read, and the options to read it by. -/
structure Reader where
  options : ReadOptions
  cursor : Cursor

namespace Reader

def ofText (options : ReadOptions) (text : String) : Reader :=
  ⟨options, .ofText text⟩

/-- Reads by `production`, moves to where that stopped, and reports a fault there. -/
def run {α : Type} (production : Production α) (r : Reader) : Except ReadError α × Reader :=
  let outcome := production r.cursor.rest
  let cursor := r.cursor.advanceTo outcome.rest
  (outcome.toExcept.mapError (⟨·, cursor.position⟩), { r with cursor })

/-- Reads a string literal, whatever unit it opens with. -/
def literal (r : Reader) : Except ReadError String × Reader :=
  r.run (SExpr.literal r.options)

def atom? (r : Reader) : Except ReadError (Option String) × Reader :=
  r.run (SExpr.atom? r.options)

def expr? (r : Reader) : Except ReadError (Option Datum) × Reader :=
  r.run (exprAt r.options r.options.maxDepth)

def list (r : Reader) : Except ReadError Datum × Reader :=
  r.run (listAt r.options r.options.maxDepth)

def expectEnd (r : Reader) : Except ReadError Unit × Reader :=
  r.run textEnd

end Reader

/-- Reads `text` as exactly one expression. A text of nothing but blanks is the empty atom. -/
def read (options : ReadOptions) (text : String) : Except ReadError Datum :=
  ((Reader.ofText options text).run (document options)).1

end SExpr

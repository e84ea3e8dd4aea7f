
namespace SExpr

inductive QuoteMark where
  | quote
  | quasiquote
  | unquote
  | unquoteSplicing
  deriving DecidableEq

namespace QuoteMark

/-- The atom that heads the list which a marked expression is read as. -/
def name : QuoteMark → String
  | .quote => "quote"
  | .quasiquote => "quasiquote"
  | .unquote => "unquote"
  | .unquoteSplicing => "unquote-splicing"

def sign : QuoteMark → String
  | .quote => "'"
  | .quasiquote => "`"
  | .unquote => ","
  | .unquoteSplicing => ",@"

def all : List QuoteMark := [.quote, .quasiquote, .unquote, .unquoteSplicing]

def signs : List (Char × QuoteMark) :=
  [('\x27', .quote), ('\x60', .quasiquote), (',', .unquote)]

def ofChar? (c : Char) : Option QuoteMark :=
  signs.lookup c

def ofName? (name : String) : Option QuoteMark :=
  all.find? (·.name == name)

@[simp] theorem ofName?_name (mark : QuoteMark) : ofName? mark.name = some mark := by
  cases mark <;> decide

end QuoteMark

end SExpr

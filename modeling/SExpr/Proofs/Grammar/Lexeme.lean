import SExpr.Datum.Measure
import SExpr.Production.Atom
import Mathlib.Data.List.Chain

/-!
# The grammar of the notation

What a text may be, said without reading it.
-/

namespace SExpr

/-- What a letter behind a backslash stands for in a string literal. -/
def controlOf : Char → Char
  | 'r' => '\r'
  | 't' => '\t'
  | 'n' => '\n'
  | 'f' => '\x0c'
  | 'b' => '\x08'
  | c => c

/-- A character of a string literal, as it stands or behind a backslash. -/
inductive LiteralItem where
  | plain (c : Char) (h : c ≠ '"' ∧ c ≠ '\\')
  | escaped (c : Char)

namespace LiteralItem

def chars : LiteralItem → List Char
  | .plain c _ => [c]
  | .escaped c => ['\\', c]

def meaning : LiteralItem → Char
  | .plain c _ => c
  | .escaped c => controlOf c

end LiteralItem

/-- A character of a bare atom, or a backslash with the unit that it takes into the atom. -/
inductive BareItem where
  | plain (c : Char) (h : stopsAtom c = false)
  | escaped (u : TextUnit)

namespace BareItem

def chars : BareItem → List Char
  | .plain c _ => [c]
  | .escaped u => '\\' :: u.chars

def meaning : BareItem → List Char
  | .plain c _ => [c]
  | .escaped u => u.chars

end BareItem

/-- What blanks may stand between. -/
inductive Lexeme where
  | opening
  | closing
  | mark (mark : QuoteMark)
  | literal (items : List LiteralItem)
  | bare (items : List BareItem) (nonempty : items ≠ [])

namespace Lexeme

def spelling : Lexeme → List Char
  | .opening => ['(']
  | .closing => [')']
  | .mark m => m.sign.toList
  | .literal items => '"' :: items.flatMap LiteralItem.chars ++ ['"']
  | .bare items _ => items.flatMap BareItem.chars

/-- Whether `next` right behind `l` would be read as part of it. -/
def RunsInto (l next : Lexeme) : Prop :=
  match l, next with
  | .bare _ _, .bare _ _ => True
  | .mark .unquote, .bare items _ => (items.flatMap BareItem.chars).head? = some '@'
  | _, _ => False

/-- Whether a line feed right behind the lexeme would be read as part of it. -/
def EndsInEscapedReturn : Lexeme → Prop
  | .bare items _ => ['\\', '\r'] <:+ items.flatMap BareItem.chars
  | _ => False

/-- Whether a lone backslash at the end of the text is passed over right behind the lexeme. -/
def TakesBackslash : Lexeme → Prop
  | .bare _ _ => True
  | _ => False

end Lexeme

structure Placed where
  lexeme : Lexeme
  gap : List Char
  blank : ∀ c ∈ gap, isBlank c
  whole : lexeme.EndsInEscapedReturn → gap.head? ≠ some '\n'

namespace Placed

def chars (p : Placed) : List Char :=
  p.lexeme.spelling ++ p.gap

def Apart (p next : Placed) : Prop :=
  p.lexeme.RunsInto next.lexeme → p.gap ≠ []

end Placed

/-- Whether the text is written with these lexemes and with blanks around them. Behind a bare atom
at the end, or if there are no lexemes, the text may end in a backslash with nothing to escape. -/
def Spells (lexemes : List Lexeme) (text : List Char) : Prop :=
  ∃ (lead : List Char) (placed : List Placed) (final : List Char),
    (∀ c ∈ lead, isBlank c) ∧ placed.IsChain Placed.Apart ∧
      (final = [] ∨ final = ['\\'] ∧
        ∀ last ∈ placed.getLast?, last.lexeme.TakesBackslash ∧ last.gap = []) ∧
      lexemes = placed.map Placed.lexeme ∧ text = lead ++ placed.flatMap Placed.chars ++ final

/-- The expressions of the notation, each with the datum that it is read as. -/
inductive Derives (options : ReadOptions) : List Lexeme → Datum → Prop where
  | literal (items : List LiteralItem) :
      Derives options [.literal items]
        (.atom (if items = [] then options.emptyLiteral
          else String.ofList (items.map LiteralItem.meaning)))
  | bare (items : List BareItem) (nonempty : items ≠ []) :
      Derives options [.bare items nonempty]
        (.atom (String.ofList (items.flatMap BareItem.meaning)))
  | marked (mark : QuoteMark) {lexemes : List Lexeme} {d : Datum}
      (inner : Derives options lexemes d) :
      Derives options (.mark mark :: lexemes) (.list [.atom mark.name, d])
  | list (parts : List (List Lexeme × Datum))
      (items : ∀ part ∈ parts, Derives options part.1 part.2) :
      Derives options (.opening :: parts.flatMap Prod.fst ++ [.closing])
        (.list (parts.map Prod.snd))

/-- A document is one expression, or nothing at all, which is the empty atom. -/
def DerivesDocument (options : ReadOptions) (lexemes : List Lexeme) (d : Datum) : Prop :=
  lexemes = [] ∧ d = .atom "" ∨ Derives options lexemes d

end SExpr

import SExpr.Datum.Map
import SExpr.Proofs.Grammar.Layout

namespace SExpr

namespace Datum

def texts (d : Datum) : List String :=
  d.nodes.filterMap text?

@[simp] theorem texts_atom (text : String) : (atom text).texts = [text] := rfl

@[simp] theorem texts_list (items : List Datum) : (list items).texts = items.flatMap texts := by
  rw [texts, nodes_list, List.filterMap_cons_none rfl, List.filterMap_flatMap]
  rfl

@[simp] theorem texts_marked (mark : QuoteMark) (d : Datum) :
    (marked mark d).texts = mark.name :: d.texts := by
  simp [marked, pair]

mutual

theorem texts_mapText (f : String → String) : (d : Datum) → (d.mapText f).texts = d.texts.map f
  | .atom _ => rfl
  | .list items => by
    rw [mapText_list, texts_list, texts_list]
    exact itemTexts_mapText f items

private theorem itemTexts_mapText (f : String → String) : (items : List Datum) →
    (items.map (mapText f)).flatMap texts = (items.flatMap texts).map f
  | [] => rfl
  | d :: items => by
    rw [List.map_cons, List.flatMap_cons, List.flatMap_cons, List.map_append, texts_mapText f d,
      itemTexts_mapText f items]

end

end Datum

/-- The text of the atom that the lexeme puts into a datum. A mark puts in its name, and a bracket
nothing. -/
def Lexeme.leaf? (options : ReadOptions) : Lexeme → Option String
  | .mark m => some m.name
  | l => l.text? options

/-- The leaves of a datum are those of the lexemes that it is derived from, in their order. -/
theorem Derives.texts_eq {options : ReadOptions} {lexemes : List Lexeme} {d : Datum}
    (derives : Derives options lexemes d) : d.texts = lexemes.filterMap (Lexeme.leaf? options) := by
  induction derives with
  | literal items => rfl
  | bare items nonempty => rfl
  | marked mark inner ih =>
    rw [← Datum.marked_eq, Datum.texts_marked, ih]
    rfl
  | list parts items ih =>
    have brackets : (Lexeme.opening :: parts.flatMap Prod.fst ++ [Lexeme.closing]).filterMap
        (Lexeme.leaf? options) = (parts.flatMap Prod.fst).filterMap (Lexeme.leaf? options) := by
      simp [List.filterMap_cons, Lexeme.leaf?, Lexeme.text?]
    rw [brackets, Datum.texts_list, List.flatMap_map, List.filterMap_flatMap]
    exact List.flatMap_congr ih

end SExpr

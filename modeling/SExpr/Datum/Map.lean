import SExpr.Datum.Walk

namespace SExpr.Datum

mutual

/-- Changes the text of every atom by `f`. -/
def mapText (f : String → String) : Datum → Datum
  | .atom text => .atom (f text)
  | .list items => .list (mapItemTexts f items)

def mapItemTexts (f : String → String) : List Datum → List Datum
  | [] => []
  | d :: items => d.mapText f :: mapItemTexts f items

end

@[simp] theorem mapText_atom (f : String → String) (text : String) :
    (atom text).mapText f = .atom (f text) := rfl

theorem mapItemTexts_eq (f : String → String) (items : List Datum) :
    mapItemTexts f items = items.map (mapText f) := by
  induction items with
  | nil => rfl
  | cons d items ih => rw [mapItemTexts, ih, List.map_cons]

@[simp] theorem mapText_list (f : String → String) (items : List Datum) :
    (list items).mapText f = .list (items.map (mapText f)) := by
  rw [mapText, mapItemTexts_eq]

mutual

@[simp] theorem mapText_id : (d : Datum) → d.mapText id = d
  | .atom _ => rfl
  | .list items => congrArg Datum.list (mapItemTexts_id items)

theorem mapItemTexts_id : (items : List Datum) → mapItemTexts id items = items
  | [] => rfl
  | d :: items => by rw [mapItemTexts, mapText_id d, mapItemTexts_id items]

end

end SExpr.Datum

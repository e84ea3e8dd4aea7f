import SExpr.Datum.Basic

namespace SExpr

namespace Datum

mutual

/-- The nodes of a tree, each before its items, in front of `more`. -/
def nodesBefore (more : List Datum) : Datum → List Datum
  | .atom text => .atom text :: more
  | .list items => .list items :: itemNodesBefore more items

def itemNodesBefore (more : List Datum) : List Datum → List Datum
  | [] => more
  | d :: items => nodesBefore (itemNodesBefore more items) d

end

/-- Every subtree, each before its items. -/
def nodes (d : Datum) : List Datum :=
  d.nodesBefore []

mutual

theorem nodesBefore_eq (more : List Datum) : (d : Datum) → d.nodesBefore more = d.nodes ++ more
  | .atom _ => rfl
  | .list items => by
    rw [nodes, nodesBefore, nodesBefore, itemNodesBefore_eq more items,
      itemNodesBefore_eq [] items, List.append_nil]
    rfl

theorem itemNodesBefore_eq (more : List Datum) :
    (items : List Datum) → itemNodesBefore more items = items.flatMap nodes ++ more
  | [] => rfl
  | d :: items => by
    rw [itemNodesBefore, itemNodesBefore_eq more items, nodesBefore_eq _ d, List.flatMap_cons,
      List.append_assoc]

end

@[simp] theorem nodes_atom (text : String) : (atom text).nodes = [.atom text] := rfl

@[simp] theorem nodes_list (items : List Datum) :
    (list items).nodes = .list items :: items.flatMap nodes := by
  rw [nodes, nodesBefore, itemNodesBefore_eq, List.append_nil]

theorem atom_mem_nodes_list {text : String} {items : List Datum} :
    .atom text ∈ (list items).nodes ↔ ∃ d ∈ items, .atom text ∈ d.nodes := by
  simp

end Datum

end SExpr

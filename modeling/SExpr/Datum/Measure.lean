import SExpr.Datum.Basic

namespace SExpr.Datum

mutual

/-- How deep lists nest: nothing for an atom, and one more than the deepest item for a list. -/
def depth : Datum → Nat
  | .atom _ => 0
  | .list items => 1 + deepest 0 items

/-- The greatest of `bound` and the depths of the items. -/
def deepest (bound : Nat) : List Datum → Nat
  | [] => bound
  | d :: items => deepest (max bound d.depth) items

end

@[simp] theorem depth_atom (text : String) : (atom text).depth = 0 := by
  simp only [depth]

theorem depth_list (items : List Datum) : (list items).depth = deepest 0 items + 1 := by
  simp only [depth, Nat.add_comm]

@[simp] theorem depth_marked (mark : QuoteMark) (d : Datum) :
    (marked mark d).depth = d.depth + 1 := by
  simp [marked, pair, depth_list, deepest]

theorem deepest_le_iff {items : List Datum} {bound limit : Nat} :
    deepest bound items ≤ limit ↔ bound ≤ limit ∧ ∀ d ∈ items, d.depth ≤ limit := by
  induction items generalizing bound with
  | nil => simp [deepest]
  | cons d items ih =>
    simp only [deepest, ih, List.forall_mem_cons, Nat.max_le, and_assoc]

theorem depth_list_le_iff {items : List Datum} {limit : Nat} :
    (list items).depth ≤ limit + 1 ↔ ∀ d ∈ items, d.depth ≤ limit := by
  rw [depth_list, Nat.add_le_add_iff_right, deepest_le_iff]
  simp

structure Census where
  lists : Nat
  atoms : Nat
  deriving DecidableEq

mutual

/-- Counts the nodes of a tree on top of `census`. -/
def count (census : Census) : Datum → Census
  | .atom _ => { census with atoms := census.atoms + 1 }
  | .list items => countItems { census with lists := census.lists + 1 } items

def countItems (census : Census) : List Datum → Census
  | [] => census
  | d :: items => countItems (d.count census) items

end

def census (d : Datum) : Census :=
  d.count ⟨0, 0⟩

end SExpr.Datum

import SExpr.Proofs.Expression

namespace SExpr

open TextUnit

namespace Cursor

private theorem skip_skip (c : Cursor) (m n : Nat) : (c.skip m).skip n = c.skip (m + n) := by
  induction m generalizing c with
  | zero => rw [Nat.zero_add, skip]
  | succ m ih =>
    rw [Nat.add_right_comm, skip, skip]
    cases next_eq : c.next? with
    | some next => exact ih next.2
    | none =>
      cases n with
      | zero => rfl
      | succ n => rw [skip, next_eq]

theorem advanceTo_self (c : Cursor) : c.advanceTo c.rest = c := by
  rw [advanceTo, Nat.sub_self, skip]

theorem advanceTo_advanceTo {c : Cursor} {middle rest : List TextUnit} (first : middle <:+ c.rest)
    (second : rest <:+ middle) : (c.advanceTo middle).advanceTo rest = c.advanceTo rest := by
  have h₁ := first.length_le
  have h₂ := second.length_le
  rw [advanceTo, rest_advanceTo first, advanceTo, skip_skip, advanceTo]
  congr 1
  omega

theorem next?_eq {c : Cursor} {u : TextUnit} {rest : List TextUnit} (h : c.rest = u :: rest) :
    c.next? = some (u, c.advanceTo rest) := by
  have one : c.rest.length - rest.length = 1 := by simp [h]
  rw [advanceTo, one]
  simp [skip, next?, h]

theorem rest_eq_of_next? {c next : Cursor} {u : TextUnit} (h : c.next? = some (u, next)) :
    c.rest = u :: next.rest := by
  obtain ⟨units, offset, position⟩ := c
  cases units with
  | nil => cases h
  | cons v units =>
    cases h
    rfl

theorem skipBlanks_eq (c : Cursor) : c.skipBlanks = c.advanceTo (SExpr.skipBlanks c.rest) := by
  have lengths := congrArg List.length
    (List.takeWhile_append_dropWhile (p := (isBlank ·.first)) (l := c.rest))
  rw [List.length_append] at lengths
  simp only [skipBlanks, takeUntil, advanceTo, SExpr.skipBlanks, Bool.not_not]
  congr 1
  omega

theorem position_skip (c : Cursor) (n : Nat) :
    (c.skip n).position = (c.rest.take n).foldl Position.after c.position := by
  induction n generalizing c with
  | zero => rfl
  | succ n ih =>
    obtain ⟨units, offset, position⟩ := c
    cases units with
    | nil => rfl
    | cons u units => exact ih ⟨units, _, _⟩

end Cursor

namespace Position

/-- The position behind the units at the front of a text. -/
def behind (units : List TextUnit) : Position :=
  units.foldl after start

instance : LT Position where
  lt p q := p.line < q.line ∨ p.line = q.line ∧ p.column < q.column

theorem lt_def {p q : Position} :
    p < q ↔ p.line < q.line ∨ p.line = q.line ∧ p.column < q.column :=
  Iff.rfl

private theorem lt_trans {p q r : Position} (h₁ : p < q) (h₂ : q < r) : p < r := by
  rw [lt_def] at *
  omega

private theorem lt_after (p : Position) (u : TextUnit) : p < p.after u := by
  unfold after
  split <;> simp [lt_def]

private theorem lt_foldl_after (p : Position) {units : List TextUnit} (h : units ≠ []) :
    p < units.foldl after p := by
  induction units generalizing p with
  | nil => exact absurd rfl h
  | cons u units ih =>
    by_cases nil : units = []
    · subst nil
      exact p.lt_after u
    · exact lt_trans (p.lt_after u) (ih (p.after u) nil)

private theorem behind_lt_append (units : List TextUnit) {more : List TextUnit} (h : more ≠ []) :
    behind units < behind (units ++ more) := by
  rw [behind, behind, List.foldl_append]
  exact lt_foldl_after _ h

theorem behind_lt_behind {units before rest before' rest' : List TextUnit}
    (h : units = before ++ rest) (h' : units = before' ++ rest')
    (shorter : rest'.length < rest.length) : behind before < behind before' := by
  rcases List.append_eq_append_iff.1 (h.symm.trans h') with
    ⟨more, rfl, rest_eq⟩ | ⟨more, rfl, rest_eq⟩
  · apply behind_lt_append before
    rintro rfl
    rw [rest_eq, List.nil_append] at shorter
    exact Nat.lt_irrefl _ shorter
  · rw [rest_eq, List.length_append] at shorter
    omega

end Position

section Document

variable {options : ReadOptions}

theorem rest_document (options : ReadOptions) (text : List TextUnit) :
    (document options text).rest = (exprAt options options.maxDepth text).rest := by
  unfold document
  cases exprAt options options.maxDepth text with
  | error fault rest => rfl
  | ok d? rest =>
    rw [Outcome.rest_map]
    cases rest <;> rfl

theorem document_eq_ok_iff {text rest : List TextUnit} {d : Datum} :
    document options text = .ok d rest ↔
      ∃ d?, exprAt options options.maxDepth text = .ok d? [] ∧ d?.getD (.atom "") = d ∧
        rest = [] := by
  unfold document
  cases expr_eq : exprAt options options.maxDepth text with
  | error fault more => simp
  | ok d? more =>
    cases more with
    | nil => simp [textEnd, eq_comm]
    | cons u more => simp [textEnd]

theorem document_eq_error_iff {text rest : List TextUnit} {fault : Fault} :
    document options text = .error fault rest ↔
      exprAt options options.maxDepth text = .error fault rest ∨
        ∃ d? u more, exprAt options options.maxDepth text = .ok d? (u :: more) ∧
          fault = .superfluous u.first ∧ rest = u :: more := by
  unfold document
  cases expr_eq : exprAt options options.maxDepth text with
  | error fault more => simp
  | ok d? more =>
    cases more with
    | nil => simp [textEnd]
    | cons u more => simp [textEnd, eq_comm]

end Document

theorem read_eq (options : ReadOptions) (text : String) :
    read options text = (document options (split text.toList)).toExcept.mapError fun fault =>
      ⟨fault,
        ((Cursor.ofText text).advanceTo (document options (split text.toList)).rest).position⟩ :=
  rfl

theorem read_eq_ok_iff_document {options : ReadOptions} {text : String} {d : Datum} :
    read options text = .ok d ↔ document options (split text.toList) = .ok d [] := by
  rw [read_eq]
  cases document_eq : document options (split text.toList) with
  | error fault rest => simp [Outcome.toExcept, Except.mapError]
  | ok d' rest =>
    obtain ⟨_, _, _, rfl⟩ := document_eq_ok_iff.1 document_eq
    simp [Outcome.toExcept, Except.mapError]

private theorem Cursor.position_ofText_advanceTo {text : String} {before rest : List TextUnit}
    (h : split text.toList = before ++ rest) :
    ((Cursor.ofText text).advanceTo rest).position = Position.behind before := by
  rw [advanceTo, position_skip]
  simp [ofText, h, Position.behind]

/-- A fault is reported at the position behind the units that were passed over. -/
theorem read_eq_error_iff {options : ReadOptions} {text : String} {e : ReadError} :
    read options text = .error e ↔
      ∃ before rest, split text.toList = before ++ rest ∧
        document options (split text.toList) = .error e.fault rest ∧
          e.position = Position.behind before := by
  have forward := document_forward options (split text.toList)
  rw [read_eq]
  cases document_eq : document options (split text.toList) with
  | ok d rest => simp [Outcome.toExcept, Except.mapError]
  | error fault rest =>
    rw [document_eq] at forward
    obtain ⟨before, units_eq⟩ := forward
    rw [Outcome.rest_error] at units_eq
    simp only [Outcome.rest_error, Cursor.position_ofText_advanceTo units_eq.symm]
    constructor
    · intro h
      cases h
      exact ⟨before, rest, units_eq.symm, rfl, rfl⟩
    · rintro ⟨before', rest', units_eq', fault_eq, position_eq⟩
      cases fault_eq
      obtain rfl := List.append_cancel_right (units_eq.trans units_eq')
      rw [← position_eq]
      rfl

theorem exists_read_eq_error {options : ReadOptions} {text : String} {fault : Fault}
    {rest : List TextUnit} (h : document options (split text.toList) = .error fault rest) :
    ∃ before, split text.toList = before ++ rest ∧
      read options text = .error ⟨fault, .behind before⟩ := by
  have forward := document_forward options (split text.toList)
  rw [h] at forward
  obtain ⟨before, units_eq⟩ := forward
  exact ⟨before, units_eq.symm, read_eq_error_iff.2 ⟨before, rest, units_eq.symm, h, rfl⟩⟩

theorem read_eq_ok_iff_exprAt {options : ReadOptions} {text : String} {d : Datum} :
    read options text = .ok d ↔
      exprAt options options.maxDepth (split text.toList) = .ok none [] ∧ d = .atom "" ∨
        exprAt options options.maxDepth (split text.toList) = .ok (some d) [] := by
  rw [read_eq_ok_iff_document, document_eq_ok_iff]
  constructor
  · rintro ⟨d?, expr_eq, rfl, -⟩
    cases d? with
    | none => exact .inl ⟨expr_eq, rfl⟩
    | some d => exact .inr expr_eq
  · rintro (⟨expr_eq, rfl⟩ | expr_eq)
    · exact ⟨none, expr_eq, rfl, rfl⟩
    · exact ⟨some d, expr_eq, rfl, rfl⟩

end SExpr

import SExpr.Text.Position

namespace SExpr

/-- A place in a text together with the text from there on. -/
structure Cursor where
  rest : List TextUnit
  offset : Nat
  position : Position
  deriving DecidableEq

namespace Cursor

def ofText (text : String) : Cursor :=
  ⟨TextUnit.split text.toList, 0, .start⟩

def peek? (c : Cursor) : Option Char :=
  SExpr.peek? c.rest

def atEnd (c : Cursor) : Bool :=
  c.rest.isEmpty

def next? (c : Cursor) : Option (TextUnit × Cursor) :=
  match c.rest with
  | [] => none
  | u :: rest => some (u, ⟨rest, c.offset + u.utf8Size, c.position.after u⟩)

/-- The cursor `n` units further on, or at the end if fewer are left. -/
def skip : Nat → Cursor → Cursor
  | 0, c => c
  | n + 1, c =>
    match c.next? with
    | none => c
    | some (_, c) => skip n c

@[simp] theorem rest_skip (n : Nat) (c : Cursor) : (c.skip n).rest = c.rest.drop n := by
  induction n generalizing c with
  | zero => rfl
  | succ n ih =>
    obtain ⟨units, offset, position⟩ := c
    cases units with
    | nil => rfl
    | cons u units => exact ih ⟨units, _, _⟩

/-- Takes units up to the first whose first character satisfies `stop`. -/
def takeUntil (stop : Char → Bool) (c : Cursor) : List TextUnit × Cursor :=
  let taken := c.rest.takeWhile (!stop ·.first)
  (taken, c.skip taken.length)

theorem takeUntil_append (stop : Char → Bool) (c : Cursor) :
    (c.takeUntil stop).1 ++ (c.takeUntil stop).2.rest = c.rest := by
  simp only [takeUntil, rest_skip]
  rw [List.prefix_iff_eq_take.1 (List.takeWhile_prefix _), List.length_take,
    Nat.min_eq_left (List.takeWhile_prefix _).length_le, List.take_append_drop]

def skipBlanks (c : Cursor) : Cursor :=
  (c.takeUntil (!isBlank ·)).2

/-- The cursor moved forward to where only `rest` is left of its text. -/
def advanceTo (rest : List TextUnit) (c : Cursor) : Cursor :=
  c.skip (c.rest.length - rest.length)

theorem rest_advanceTo {rest : List TextUnit} {c : Cursor} (h : rest <:+ c.rest) :
    (c.advanceTo rest).rest = rest := by
  obtain ⟨before, h⟩ := h
  simp [advanceTo, ← h]

end Cursor

end SExpr

import SExpr.Proofs.Checked.Reader

/-!
# What a message tells

One mark begins as another does, and a number has as many digits as it needs. Still whatever is put
in has a blank behind it, and that shows where it ends.
-/

namespace SExpr

/-- Whether a blank behind a written value shows where it ends, also where the writing has blanks of
its own. -/
def EndsAtBlank {α : Type} (write : α → String) : Prop :=
  ∀ ⦃a b : α⦄ ⦃behind behind' : List Char⦄,
    (write a).toList ++ ' ' :: behind = (write b).toList ++ ' ' :: behind' →
      a = b ∧ behind = behind'

namespace EndsAtBlank

variable {α β : Type} {write : α → String} {write' : β → String}

private theorem injective (ends : EndsAtBlank write) : Function.Injective write := by
  intro a b same
  exact (ends (congrArg (·.toList ++ [' ']) same)).1

private theorem behind_word (ends : EndsAtBlank write) (word : String) :
    EndsAtBlank fun a => word ++ write a := by
  intro a b behind behind' same
  rw [String.toList_append, String.toList_append, List.append_assoc, List.append_assoc] at same
  exact ends (List.append_cancel_left same)

private theorem pair (ends : EndsAtBlank write) (ends' : EndsAtBlank write') :
    EndsAtBlank fun p : α × β => write p.1 ++ " " ++ write' p.2 := by
  intro p q behind behind' same
  have parts : ∀ (r : α × β) (more : List Char),
      (write r.1 ++ " " ++ write' r.2).toList ++ ' ' :: more =
        (write r.1).toList ++ ' ' :: ((write' r.2).toList ++ ' ' :: more) := by
    intro r more
    simp
  rw [parts, parts] at same
  obtain ⟨first_eq, same⟩ := ends same
  obtain ⟨second_eq, same⟩ := ends' same
  exact ⟨Prod.ext first_eq second_eq, same⟩

end EndsAtBlank

section Parts

private theorem endsAtBlank_word (word : String) : EndsAtBlank fun _ : Unit => word := by
  intro _ _ behind behind' same
  exact ⟨rfl, List.tail_eq_of_cons_eq (List.append_cancel_left same)⟩

private theorem takeWhile_isDigit_toDigits (n : Nat) (behind : List Char) :
    (Nat.toDigits 10 n ++ ' ' :: behind).takeWhile Char.isDigit = Nat.toDigits 10 n := by
  have digits : ∀ c ∈ Nat.toDigits 10 n, c.isDigit = true := by
    intro c isIn
    exact Nat.isDigit_of_mem_toDigits (by decide) (by decide) isIn
  rw [List.takeWhile_append_of_pos digits, List.takeWhile_cons_of_neg (by decide),
    List.append_nil]

/-- A blank is no digit. -/
theorem endsAtBlank_number : EndsAtBlank Nat.repr := by
  intro m n behind behind' same
  rw [Nat.toList_repr, Nat.toList_repr] at same
  have digits_eq := congrArg (List.takeWhile Char.isDigit) same
  rw [takeWhile_isDigit_toDigits, takeWhile_isDigit_toDigits] at digits_eq
  obtain rfl : m = n := by
    rw [← Nat.ofDigitChars_ten_toDigits (n := m), digits_eq, Nat.ofDigitChars_ten_toDigits]
  exact ⟨rfl, List.tail_eq_of_cons_eq (List.append_cancel_left same)⟩

/-- A comma has the blank where a comma with an at sign has the at sign. -/
theorem endsAtBlank_sign : EndsAtBlank QuoteMark.sign := by
  intro mark mark' behind behind' same
  cases mark <;> cases mark' <;> simp [QuoteMark.sign] at same
  all_goals exact ⟨rfl, same⟩

/-- A character that is seen has the blank second, where `null` has a letter. -/
theorem endsAtBlank_showSeen : EndsAtBlank Fault.showSeen := by
  intro seen seen' behind behind' same
  cases seen with
  | none =>
    cases seen' with
    | none => simpa [Fault.showSeen] using same
    | some c => simp [Fault.showSeen] at same
  | some c =>
    cases seen' with
    | none => simp [Fault.showSeen] at same
    | some c' => simpa [Fault.showSeen] using same

end Parts

namespace Fault

/-- The words for a fault as far as its kind alone decides them. -/
def opening : Fault → String
  | .unterminatedLiteral => "Syntax Error: Unterminated string literal"
  | .nothingMarked _ _ => "Syntax Error: Unexpected "
  | .missingOpening _ => "Syntax Error: Expected ( - saw "
  | .missingClosing _ => "Syntax Error: Expected ) - saw: "
  | .superfluous _ => "Syntax error: Superfluous characters after expression: "
  | .tooDeep => "Syntax Error: Nesting too deep"

def detail : Fault → String
  | .unterminatedLiteral => ""
  | .nothingMarked mark seen => showSeen seen ++ " " ++ ("after " ++ mark.sign)
  | .missingOpening seen => showSeen seen ++ " " ++ "instead."
  | .missingClosing seen => showSeen seen
  | .superfluous seen => showSeen (some seen)
  | .tooDeep => ""

private theorem message_eq (fault : Fault) : fault.message = fault.opening ++ fault.detail := by
  -- Lean is slow to derive the equations of `message`, so the goals are put in as it evaluates.
  cases fault with
  | unterminatedLiteral => rfl
  | nothingMarked mark seen =>
    change "Syntax Error: Unexpected " ++ showSeen seen ++ (" " ++ "after ") ++ mark.sign = _
    simp only [opening, detail, String.append_assoc]
  | missingOpening seen =>
    change "Syntax Error: Expected ( - saw " ++ showSeen seen ++ (" " ++ "instead.") = _
    simp only [opening, detail, String.append_assoc]
  | missingClosing seen => rfl
  | superfluous seen => rfl
  | tooDeep => rfl

def openings : List String :=
  [opening .unterminatedLiteral, opening (.nothingMarked .quote none),
    opening (.missingOpening none), opening (.missingClosing none), opening (.superfluous ' '),
    opening .tooDeep]

private theorem opening_mem (fault : Fault) : fault.opening ∈ openings := by
  cases fault <;> simp [openings, opening]

private theorem openings_apart :
    ∀ word ∈ openings, ∀ word' ∈ openings, word.toList <+: word'.toList → word = word' := by
  decide +kernel

private theorem opening_eq_of_append {fault fault' : Fault} {behind behind' : List Char}
    (same : fault.opening.toList ++ behind = fault'.opening.toList ++ behind') :
    fault.opening = fault'.opening := by
  have front := List.prefix_append fault.opening.toList behind
  have front' := List.prefix_append fault'.opening.toList behind'
  rw [← same] at front'
  rcases List.prefix_or_prefix_of_prefix front front' with shorter | shorter
  · exact openings_apart _ fault.opening_mem _ fault'.opening_mem shorter
  · exact (openings_apart _ fault'.opening_mem _ fault.opening_mem shorter).symm

/-- The opening tells the kind, and then each part of the detail shows where it ends. -/
theorem endsAtBlank_message : EndsAtBlank message := by
  intro fault fault' behind behind' same
  rw [message_eq, message_eq, String.toList_append, String.toList_append, List.append_assoc,
    List.append_assoc] at same
  have kind_eq := opening_eq_of_append same
  rw [kind_eq] at same
  have detail_eq := List.append_cancel_left same
  cases fault <;> cases fault'
  case unterminatedLiteral.unterminatedLiteral =>
    exact ⟨rfl, List.tail_eq_of_cons_eq detail_eq⟩
  case nothingMarked.nothingMarked mark seen mark' seen' =>
    have ends := endsAtBlank_showSeen.pair (endsAtBlank_sign.behind_word "after ")
    obtain ⟨parts_eq, behind_eq⟩ : (seen, mark) = (seen', mark') ∧ behind = behind' :=
      ends detail_eq
    cases parts_eq
    exact ⟨rfl, behind_eq⟩
  case missingOpening.missingOpening seen seen' =>
    have ends := endsAtBlank_showSeen.pair (endsAtBlank_word "instead.")
    obtain ⟨parts_eq, behind_eq⟩ : (seen, ()) = (seen', ()) ∧ behind = behind' := ends detail_eq
    cases parts_eq
    exact ⟨rfl, behind_eq⟩
  case missingClosing.missingClosing seen seen' =>
    obtain ⟨rfl, behind_eq⟩ := endsAtBlank_showSeen detail_eq
    exact ⟨rfl, behind_eq⟩
  case superfluous.superfluous c c' =>
    obtain ⟨seen_eq, behind_eq⟩ := endsAtBlank_showSeen detail_eq
    cases seen_eq
    exact ⟨rfl, behind_eq⟩
  case tooDeep.tooDeep => exact ⟨rfl, List.tail_eq_of_cons_eq detail_eq⟩
  -- Faults of different kinds have different openings.
  all_goals simp [opening] at kind_eq

end Fault

section Errors

private theorem Position.render_eq (p : Position) :
    p.render = "line: " ++ p.lineNumber.repr ++ " " ++ ("col: " ++ p.columnNumber.repr) := by
  change "line: " ++ p.lineNumber.repr ++ (" " ++ "col: ") ++ p.columnNumber.repr = _
  simp only [String.append_assoc]

private theorem Position.endsAtBlank_render : EndsAtBlank Position.render := by
  have line := endsAtBlank_number.behind_word "line: "
  have column := endsAtBlank_number.behind_word "col: "
  intro p q behind behind' same
  rw [render_eq, render_eq] at same
  obtain ⟨numbers_eq, behind_eq⟩ :
      (p.lineNumber, p.columnNumber) = (q.lineNumber, q.columnNumber) ∧ behind = behind' :=
    line.pair column same
  cases p
  cases q
  simpa [lineNumber, columnNumber, behind_eq] using numbers_eq

private theorem ReadError.message_injective : Function.Injective message := by
  have ends := Fault.endsAtBlank_message.pair Position.endsAtBlank_render
  intro e e' same
  have parts_eq : (e.fault, e.position) = (e'.fault, e'.position) := ends.injective same
  cases e
  cases e'
  simpa using parts_eq

private theorem Place.position_injective : Function.Injective position := by
  intro p q same
  cases p
  cases q
  simpa [position, UInt32.toNat_inj] using same

private theorem WordError.error_injective : Function.Injective error := by
  intro e e' same
  obtain ⟨fault_eq, position_eq⟩ := ReadError.mk.inj same
  cases e
  cases e'
  cases fault_eq
  cases Place.position_injective position_eq
  rfl

private theorem Place.render?_eq {p : Place} (line : p.line < 4294967295)
    (column : p.column < 4294967295) :
    p.render? = some p.position.render := by
  obtain ⟨line', line_eq, line_toNat⟩ := successor?_eq (w := p.line)
    (Nat.succ_lt_succ (UInt32.lt_iff_toNat_lt.1 line))
  obtain ⟨column', column_eq, column_toNat⟩ := successor?_eq (w := p.column)
    (Nat.succ_lt_succ (UInt32.lt_iff_toNat_lt.1 column))
  have shown : p.render? =
      some ("line: " ++ line'.toNat.repr ++ " col: " ++ column'.toNat.repr) := by
    rw [render?, lineNumber?, columnNumber?, line_eq, column_eq]
    rfl
  rw [shown, line_toNat, column_toNat]
  rfl

private theorem WordError.message?_eq {e : WordError} (line : e.place.line < 4294967295)
    (column : e.place.column < 4294967295) : e.message? = some e.error.message := by
  rw [message?, Place.render?_eq line column]
  rfl

end Errors

/-- A message tells everything about the error, so no two errors share one: not those that are
counted without bounds, and not those in machine words. -/
theorem message_tells_error :
    (∀ e e' : ReadError, e.message = e'.message ↔ e = e') ∧
      ∀ e e' : WordError, e.place.line < 4294967295 → e.place.column < 4294967295 →
        e'.place.line < 4294967295 → e'.place.column < 4294967295 →
          e.message? = some e.error.message ∧ e'.message? = some e'.error.message ∧
            (e.message? = e'.message? ↔ e = e') := by
  constructor
  · intro e e'
    exact ReadError.message_injective.eq_iff
  · intro e e' line column line' column'
    have message_eq := WordError.message?_eq line column
    have message_eq' := WordError.message?_eq line' column'
    refine ⟨message_eq, message_eq', ?_⟩
    rw [message_eq, message_eq', Option.some_inj, ReadError.message_injective.eq_iff,
      WordError.error_injective.eq_iff]

theorem message_tells_error_missingClosing :
    let e : WordError := ⟨.missingClosing (some 'n'), ⟨0, 4294967294⟩⟩
    let e' : WordError := ⟨.missingClosing none, ⟨0, 4294967294⟩⟩
    (0 : UInt32) < 4294967295 ∧ (4294967294 : UInt32) < 4294967295 ∧
      e.message? = some "Syntax Error: Expected ) - saw: n line: 1 col: 4294967295" ∧
        e'.message? = some "Syntax Error: Expected ) - saw: null line: 1 col: 4294967295" ∧
          e.message? ≠ e'.message? := by
  intro e e'
  have first : (0 : UInt32) < 4294967295 := by decide
  have last : (4294967294 : UInt32) < 4294967295 := by decide
  obtain ⟨message_eq, message_eq', tells⟩ := message_tells_error.2 e e' first last first last
  refine ⟨first, last, message_eq.trans (by decide +kernel), message_eq'.trans (by decide +kernel),
    ?_⟩
  intro same
  have seen_eq : Fault.missingClosing (some 'n') = .missingClosing none :=
    congrArg WordError.fault (tells.1 same)
  cases seen_eq

end SExpr

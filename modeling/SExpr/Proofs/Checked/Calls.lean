import SExpr.Proofs.Checked.Agreement

/-!
# Words suffice

The bound on the length of a text is there because the shown numbers of its last column have to fit
into a word.
-/

namespace SExpr

open TextUnit

abbrev Call.Reply (ε : Type) : Call → Type
  | .peek => Option Char
  | .next => Option String
  | .takeUntil _ => String
  | .skipBlanks => Unit
  | .ask request => Except ε request.Value

def Call.Reply.mapError {ε ε' : Type} (f : ε → ε') : {call : Call} → call.Reply ε → call.Reply ε'
  | .peek, reply => reply
  | .next, reply => reply
  | .takeUntil _, reply => reply
  | .skipBlanks, reply => reply
  | .ask _, reply => Except.mapError f reply

/-- What a call at `c` is answered with. -/
def Cursor.reply (options : ReadOptions) (c : Cursor) : (call : Call) → call.Reply ReadError
  | .peek => c.peek?
  | .next => c.next?.map fun next => String.ofList next.1.chars
  | .takeUntil stop => String.ofList (join (c.takeUntil stop).1)
  | .skipBlanks => ()
  | .ask request => ((Reader.mk options c).answer request).1

namespace Checked

def reply (options : WordOptions) : (call : Call) → Step (call.Reply WordError)
  | .peek => ByteCursor.peek
  | .next => ByteCursor.next
  | .takeUntil stop => ByteCursor.takeUntil stop
  | .skipBlanks => ByteCursor.skipBlanks
  | .ask request => (answer options request).run

def course (options : WordOptions) (calls : List Call) (c : ByteCursor) : Option ByteCursor :=
  calls.foldlM (fun c call => ((reply options call).run c).map Prod.snd) c

end Checked

def ByteCursor.cursor (rest : List TextUnit) (c : ByteCursor) : Cursor :=
  ⟨rest, c.offset, c.place.position⟩

/-- Two cursors in one text with the same left are the same. -/
theorem Cursor.HasPassed.eq_of_rest_eq {text : String} {before before' : List TextUnit}
    {c c' : Cursor} (passed : c.HasPassed text before) (passed' : c'.HasPassed text before')
    (same : c.rest = c'.rest) : c = c' := by
  have counted := passed.eq_of_length_eq passed' (congrArg List.length same)
  obtain ⟨rest, offset, position⟩ := c
  obtain ⟨rest', offset', position'⟩ := c'
  obtain rfl : rest = rest' := same
  obtain rfl : offset = offset' := counted.1
  obtain rfl : position = position' := counted.2
  rfl

private theorem ByteCursor.At.cursor_call {text : String} {rest : List TextUnit} {c c' : ByteCursor}
    (stands : c.At text rest) {options : ReadOptions} {call : Call}
    (behind : c'.At text ((c.cursor rest).call options call).rest) :
    c'.cursor ((c.cursor rest).call options call).rest = (c.cursor rest).call options call := by
  obtain ⟨-, before, passed⟩ := stands
  obtain ⟨-, before', passed'⟩ := behind
  obtain ⟨units, goesOn⟩ := passed.call options call
  exact passed'.eq_of_rest_eq goesOn rfl

namespace Checked

theorem Follows.run {α : Type} {text : String} {reading : Reading α} {production : Production α}
    (follows : Follows text reading production) (forward : Forward production)
    (options : ReadOptions) {rest : List TextUnit} {c : ByteCursor} (stands : c.At text rest) :
    let here := (Reader.mk options (c.cursor rest)).run production
    ∃ reply c', reading.run.run c = some (reply, c') ∧ c'.At text here.2.cursor.rest ∧
      c'.cursor here.2.cursor.rest = here.2.cursor ∧ reply.mapError WordError.error = here.1 ∧
        ∀ e, reply = .error e → e.place = c'.place := by
  intro here
  obtain ⟨c', run, behind⟩ := follows c rest stands
  have left_eq : here.2.cursor.rest = (production rest).rest := Reader.rest_run forward _
  rw [← left_eq] at behind
  have cursor_eq : c'.cursor here.2.cursor.rest = here.2.cursor := by
    obtain ⟨before, passed⟩ := stands.passed
    obtain ⟨before', passed'⟩ := behind.passed
    obtain ⟨taken, -, goesOn⟩ := (Reader.mk options (c.cursor rest)).run_hasPassed forward passed
    exact passed'.eq_of_rest_eq goesOn rfl
  refine ⟨_, c', run, behind, cursor_eq, ?_, ?_⟩
  · have place_eq : c'.place.position = here.2.cursor.position := congrArg Cursor.position cursor_eq
    simp only [here, Reader.run] at place_eq ⊢
    rw [← place_eq]
    change _ = Except.mapError _ (production rest).toExcept
    cases (production rest).toExcept <;> rfl
  · intro e failed
    cases outcome : production rest with
    | ok value left =>
      rw [outcome] at failed
      cases failed
    | error fault left =>
      rw [outcome] at failed
      cases failed
      rfl

variable {text : String} (short : text.length ≤ UInt32.size - 2) (options : WordOptions)
  {rest : List TextUnit} {c : ByteCursor}
include short

theorem answer_run (request : Request) (stands : c.At text rest) :
    let here := (Reader.mk options.options (c.cursor rest)).answer request
    ∃ reply c', (answer options request).run.run c = some (reply, c') ∧
      c'.At text here.2.cursor.rest ∧ c'.cursor here.2.cursor.rest = here.2.cursor ∧
        reply.mapError WordError.error = here.1 ∧ ∀ e, reply = .error e → e.place = c'.place := by
  rw [Reader.answer_eq_run]
  exact (answer_follows short options request).run (request.production_forward _) _ stands

private theorem reply_run (call : Call) (stands : c.At text rest) :
    ∃ reply c', (Checked.reply options call).run c = some (reply, c') ∧
      c'.At text ((c.cursor rest).call options.options call).rest ∧
      reply.mapError WordError.error = (c.cursor rest).reply options.options call := by
  cases call with
  | peek => exact ⟨_, c, stands.peek_run, stands, rfl⟩
  | next =>
    cases rest with
    | nil => exact ⟨_, c, stands.next_run_nil, stands, rfl⟩
    | cons u rest =>
      obtain ⟨c', run, behind⟩ := stands.next_run short
      exact ⟨_, c', run, behind, rfl⟩
  | takeUntil stop =>
    obtain ⟨c', run, behind⟩ := stands.takeUntil_run short stop
    refine ⟨_, c', run, ?_, rfl⟩
    rwa [Cursor.call, Cursor.rest_takeUntil]
  | skipBlanks =>
    obtain ⟨c', run, behind⟩ := stands.skipBlanks_run short
    refine ⟨_, c', run, ?_, rfl⟩
    rwa [Cursor.call, Cursor.skipBlanks_eq, Cursor.rest_advanceTo (skipBlanks_suffix _)]
  | ask request =>
    obtain ⟨reply, c', run, behind, -, reply_eq, -⟩ := answer_run short options request stands
    exact ⟨reply, c', run, behind, reply_eq⟩

theorem course_run (calls : List Call) (stands : c.At text rest) :
    ∃ c' rest', course options calls c = some c' ∧ c'.At text rest' ∧
      c'.cursor rest' = (c.cursor rest).course options.options calls := by
  induction calls generalizing c rest with
  | nil => exact ⟨c, rest, rfl, stands, rfl⟩
  | cons call calls ih =>
    obtain ⟨reply, mid, run, behind, -⟩ := reply_run short options call stands
    obtain ⟨c', rest', goesOn, behind', same⟩ := ih behind
    refine ⟨c', rest', ?_, behind', ?_⟩
    · rw [course, List.foldlM_cons, run]
      exact goesOn
    · rw [same, stands.cursor_call behind]
      rfl

end Checked

/-- Whether line and column can be shown, counted from one in words. -/
def Place.CanBeShown (p : Place) : Prop :=
  p.lineNumber?.map UInt32.toNat = some p.position.lineNumber ∧
    p.columnNumber?.map UInt32.toNat = some p.position.columnNumber

theorem Place.Countable.canBeShown {p : Place} (countable : p.Countable) : p.CanBeShown := by
  have fits : ∀ w : UInt32, w.toNat + 1 < UInt32.size →
      (successor? w).map UInt32.toNat = some (w.toNat + 1) := by
    intro w h
    obtain ⟨next, next_eq, toNat_eq⟩ := successor?_eq h
    rw [next_eq, Option.map_some, toNat_eq]
  have bound : p.line.toNat + p.column.toNat + 1 < UInt32.size := countable
  exact ⟨fits p.line (by omega), fits p.column (by omega)⟩

/-- In a text of at most `2 ^ 32 - 2` characters no check ever fails. Whatever calls are made, with
errors or without, the cursor comes to where the one is that counts without bounds, its line and
column can be shown, and a further call is answered alike. -/
theorem no_check_fails (text : String) (short : text.length ≤ UInt32.size - 2)
    (options : WordOptions) (calls : List Call) :
    let k := (Cursor.ofText text).course options.options calls
    ∃ c, Checked.course options calls (.ofText text) = some c ∧
      c.text = text ∧ c.offset = k.offset ∧ c.place.position = k.position ∧ c.place.CanBeShown ∧
      (∃ before left : String, k.Divides before left text ∧
        c.place.line.toNat + c.place.column.toNat ≤ before.length) ∧
      (∀ call, ∃ reply c', (Checked.reply options call).run c = some (reply, c') ∧
        Checked.course options (calls ++ [call]) (.ofText text) = some c' ∧
          reply.mapError WordError.error = k.reply options.options call) ∧
      ∀ request, ∃ reply c', (Checked.answer options request).run.run c = some (reply, c') ∧
        ∀ e, reply = .error e → e.place = c'.place ∧ e.place.CanBeShown := by
  intro k
  obtain ⟨c, rest, run, stands, same⟩ :=
    Checked.course_run short options calls (ByteCursor.at_ofText text)
  replace same : k = c.cursor rest := same.symm
  obtain ⟨before, passed⟩ := stands.passed
  refine ⟨c, run, stands.text_eq, ?_, ?_, (stands.countable short).canBeShown, ?_, ?_, ?_⟩
  · rw [same]
    rfl
  · rw [same]
    rfl
  · refine ⟨String.ofList (join before), String.ofList (join rest), ?_, ?_⟩
    · rw [same]
      exact passed.divides
    · rw [String.length_ofList]
      exact passed.line_add_column_le
  · intro call
    obtain ⟨reply, c', reply_eq, -, agrees⟩ := Checked.reply_run short options call stands
    refine ⟨reply, c', reply_eq, ?_, same ▸ agrees⟩
    rw [Checked.course, List.foldlM_append, ← Checked.course, run]
    simp [reply_eq]
  · intro request
    obtain ⟨reply, c', reply_eq, behind, -, -, place_eq⟩ :=
      Checked.answer_run short options request stands
    refine ⟨reply, c', reply_eq, fun e failed => ?_⟩
    have same_place := place_eq e failed
    exact ⟨same_place, same_place ▸ (behind.countable short).canBeShown⟩

theorem no_check_fails_missingClosing :
    "(ä\r\n b".length ≤ UInt32.size - 2 ∧
      ∃ c, Checked.course ⟨" ", 2⟩ [.ask .list, .next] (.ofText "(ä\r\n b") = some c ∧
        c.offset = 7 ∧ c.place.position = ⟨1, 2⟩ := by
  have short : "(ä\r\n b".length ≤ UInt32.size - 2 := by decide
  obtain ⟨c, run, -, offset_eq, position_eq, -⟩ :=
    no_check_fails "(ä\r\n b" short ⟨" ", 2⟩ [.ask .list, .next]
  exact ⟨short, c, run, offset_eq.trans (by decide +kernel), position_eq.trans (by decide +kernel)⟩

end SExpr

import SExpr.Proofs.Checked.Calls
import SExpr.Proofs.Faults
import SExpr.Proofs.Translation

namespace SExpr

open TextUnit

namespace Checked

section Document

def document (options : WordOptions) : Reading Datum := do
  let d? ← answer options .expr
  let _ ← textEnd
  return d?.getD (.atom "")

def read (options : WordOptions) (text : String) : Option (Except WordError Datum) :=
  ((document options).run.run (.ofText text)).map Prod.fst

variable {text : String} (short : text.length ≤ UInt32.size - 2) (options : WordOptions)
include short

private theorem document_follows :
    Follows text (document options) (SExpr.document options.options) := by
  intro c rest stands
  have expr_meets : Meets text c (answer options .expr)
      (exprAt options.options options.options.maxDepth rest) :=
    answer_follows short options .expr c rest stands
  unfold SExpr.document
  cases expr_eq : exprAt options.options options.options.maxDepth rest with
  | error fault left =>
    rw [expr_eq] at expr_meets
    exact expr_meets.bind_error
  | ok d? left =>
    rw [expr_eq] at expr_meets
    exact expr_meets.bind fun c behind => (textEnd_meets behind).map _

/-- A whole text is read in words as it is without bounds, and an error can be shown. -/
theorem exists_read_eq :
    ∃ result, Checked.read options text = some result ∧
      result.mapError WordError.error = SExpr.read options.options text ∧
        ∀ e, result = .error e → e.place.CanBeShown := by
  have stands := ByteCursor.at_ofText text
  obtain ⟨reply, c, run, behind, -, reply_eq, place_eq⟩ := (document_follows short options).run
    (document_forward options.options) options.options stands
  refine ⟨reply, ?_, reply_eq, fun e failed => ?_⟩
  · rw [Checked.read, run]
    rfl
  · rw [place_eq e failed]
    exact (behind.countable short).canBeShown

end Document

section Progress

inductive Brings (options : WordOptions) : ByteCursor → List Datum → ByteCursor → Prop where
  | done (c : ByteCursor) : Brings options c [] c
  | item {c mid last : ByteCursor} {d : Datum} {items : List Datum}
      (first : (answer options .expr).run.run c = some (.ok (some d), mid))
      (others : Brings options mid items last) : Brings options c (d :: items) last

private theorem value_eq_of_mapError {α : Type} {reply : Except WordError α} {value : α} :
    reply.mapError WordError.error = .ok value ↔ reply = .ok value := by
  cases reply <;> simp [Except.mapError]

private theorem Brings.length_le {text : String} (short : text.length ≤ UInt32.size - 2)
    {options : WordOptions} {c last : ByteCursor} {items : List Datum} {rest : List TextUnit}
    (brings : Brings options c items last) (stands : c.At text rest) :
    items.length ≤ rest.length := by
  induction brings generalizing rest with
  | done c => exact Nat.zero_le _
  | @item c mid last d items first others ih =>
    obtain ⟨reply, c', reply_run, behind, -, reply_eq, -⟩ := answer_run short options .expr stands
    obtain ⟨rfl, rfl⟩ : reply = .ok (some d) ∧ c' = mid := by
      simpa using Option.some.inj (reply_run.symm.trans first)
    have reads := exprAt_readsExpressions options.options options.options.maxDepth
    have some_eq := (Reader.run_eq_ok_iff reads.forward _).1 reply_eq.symm
    have shorter := reads.progress _ _ _ some_eq
    exact Nat.succ_le_of_lt (Nat.lt_of_le_of_lt (ih behind) shorter)

end Progress

section Calls

variable (text : String) (short : text.length ≤ UInt32.size - 2) (options : WordOptions)
  (calls : List Call)
include short

/-- Whatever was called for before, an answer is that to the same request at the beginning of the
rest. The cursor goes on as far, and places are the same but for where the rest begins. -/
theorem answer_eq_answer_ofText :
    ∃ c, ∃ before left : String, course options calls (.ofText text) = some c ∧
      text = before ++ left ∧ c.offset = before.utf8ByteSize ∧
        ∀ request, ∃ reply c' fresh begun,
          (answer options request).run.run c = some (reply, c') ∧
          (answer options request).run.run (.ofText left) = some (fresh, begun) ∧
          reply.mapError WordError.error =
            fresh.mapError (·.error.translate c.place.position) ∧
          c'.offset = c.offset + begun.offset ∧
          c'.place.position = c.place.position.translate begun.place.position := by
  obtain ⟨c, rest, run, stands, -⟩ := course_run short options calls (ByteCursor.at_ofText text)
  obtain ⟨before, passed⟩ := stands.passed
  have divides := passed.divides
  refine ⟨c, _, _, run, divides.text_eq, divides.offset, fun request => ?_⟩
  set left := String.ofList (join rest)
  have short_left : left.length ≤ UInt32.size - 2 := by
    have length_eq := congrArg String.length divides.text_eq
    rw [String.length_append] at length_eq
    exact Nat.le_trans (by omega) short
  obtain ⟨reply, c', reply_run, -, cursor_eq, reply_eq, -⟩ :=
    answer_run short options request stands
  obtain ⟨fresh, begun, fresh_run, -, begun_eq, fresh_eq, -⟩ :=
    answer_run short_left options request (ByteCursor.at_ofText left)
  have moved := Reader.run_translate (request.production_forward options.options)
    (r := ⟨options.options, c.cursor rest⟩) (.ofText options.options left) passed (.ofText left)
    passed.split_rest
  rw [Reader.answer_eq_run] at cursor_eq reply_eq begun_eq fresh_eq
  have offset_eq := congrArg Cursor.offset cursor_eq
  have position_eq := congrArg Cursor.position cursor_eq
  have begun_offset := congrArg Cursor.offset begun_eq
  have begun_position := congrArg Cursor.position begun_eq
  refine ⟨reply, c', fresh, begun, reply_run, fresh_run, ?_, ?_, ?_⟩
  · have through : fresh.mapError (·.error.translate c.place.position) =
        (fresh.mapError WordError.error).mapError (·.translate c.place.position) := by
      cases fresh <;> rfl
    rw [through, reply_eq, fresh_eq]
    exact moved.1
  · exact offset_eq.trans (moved.2.2.1.trans (congrArg (c.offset + ·) begun_offset.symm))
  · exact position_eq.trans
      (moved.2.2.2.trans (congrArg c.place.position.translate begun_position.symm))

/-- Whatever was called for before, an error in answer to a request tells the place where the cursor
is left, and describes it. -/
theorem answer_error_describes :
    ∃ c rest, course options calls (.ofText text) = some c ∧ c.At text rest ∧
      ∀ request, ∃ reply c' rest',
        (answer options request).run.run c = some (reply, c') ∧ c'.At text rest' ∧
          ∀ e, reply = .error e →
            e.place = c'.place ∧ e.error.Describes request (c.cursor rest) (c'.cursor rest') := by
  obtain ⟨c, rest, run, stands, -⟩ := course_run short options calls (ByteCursor.at_ofText text)
  refine ⟨c, rest, run, stands, fun request => ?_⟩
  obtain ⟨reply, c', reply_run, behind, cursor_eq, reply_eq, place_eq⟩ :=
    answer_run short options request stands
  refine ⟨reply, c', _, reply_run, behind, fun e failed => ⟨place_eq e failed, ?_⟩⟩
  subst failed
  rw [cursor_eq]
  exact Reader.answer_describes _ request reply_eq.symm

/-- Whatever was called for before, a request for an expression is answered with none exactly if
there is nothing to read. The cursor never moves back, with an expression it moves over a character
that is no blank, and the expressions that it brings are no more than the characters left. -/
theorem answer_goes_forward :
    ∃ c, ∃ before left : String, course options calls (.ofText text) = some c ∧
      text = before ++ left ∧ c.offset = before.utf8ByteSize ∧
      (∃ reply c', (answer options .expr).run.run c = some (reply, c') ∧
        (reply = .ok none ↔ NothingToRead left.toList) ∧
        (reply = .ok none → ∃ seen, ByteCursor.peek.run c' = some (seen, c') ∧
          (seen = none ∨ seen = some ')')) ∧
        ∀ d, reply = .ok (some d) → ∃ taken behind : String, left = taken ++ behind ∧
          (∃ char ∈ taken.toList, isBlank char = false) ∧
            c'.offset = (before ++ taken).utf8ByteSize) ∧
      (∀ request, ∃ reply c', (answer options request).run.run c = some (reply, c') ∧
        c.offset ≤ c'.offset) ∧
      ∀ items last, Brings options c items last → items.length ≤ left.length := by
  obtain ⟨c, rest, run, stands, -⟩ := course_run short options calls (ByteCursor.at_ofText text)
  obtain ⟨before, passed⟩ := stands.passed
  have divides := passed.divides
  refine ⟨c, _, _, run, divides.text_eq, divides.offset, ?_, fun request => ?_, ?_⟩
  · obtain ⟨reply, c', reply_run, behind, cursor_eq, reply_eq, -⟩ :=
      answer_run short options .expr stands
    have nothing := (Reader.mk options.options (c.cursor rest)).expr?_none
    refine ⟨reply, c', reply_run, ?_, fun none_eq => ?_, fun d some_eq => ?_⟩
    · rw [nothingToRead_iff, ← divides.rest_eq, ← value_eq_of_mapError, reply_eq]
      exact nothing.1
    · refine ⟨_, behind.peek_run, nothing.2 ?_⟩
      rw [← value_eq_of_mapError, reply_eq] at none_eq
      exact none_eq
    · rw [← value_eq_of_mapError, reply_eq] at some_eq
      obtain ⟨taken, left, left_eq, full, goesOn, -⟩ := Reader.expr?_some _ passed some_eq
      exact ⟨taken, left, left_eq, full,
        (congrArg Cursor.offset cursor_eq).trans goesOn.offset⟩
  · obtain ⟨reply, c', reply_run, -, cursor_eq, -, -⟩ := answer_run short options request stands
    have goesOn := Reader.offset_le_run (request.production_forward options.options)
      ⟨options.options, c.cursor rest⟩ passed
    rw [Reader.answer_eq_run] at cursor_eq
    exact ⟨reply, c', reply_run, goesOn.trans (congrArg Cursor.offset cursor_eq).ge⟩
  · intro items last brings
    rw [String.length_ofList]
    exact (brings.length_le short stands).trans (length_le_join rest)

end Calls

end Checked

end SExpr

import SExpr.Proofs.Cursor

namespace SExpr

open TextUnit

inductive Request where
  | expr
  | list
  | atom
  | literal
  | textEnd

namespace Request

abbrev Value : Request → Type
  | expr => Option Datum
  | list => Datum
  | atom => Option String
  | literal => String
  | textEnd => Unit

def production (options : ReadOptions) : (request : Request) → Production request.Value
  | expr => exprAt options options.maxDepth
  | list => listAt options options.maxDepth
  | atom => atom? options
  | literal => SExpr.literal options
  | textEnd => SExpr.textEnd

theorem production_forward (options : ReadOptions) (request : Request) :
    Forward (request.production options) := by
  cases request with
  | expr => exact exprAt_forward options options.maxDepth
  | list => exact listAt_forward options options.maxDepth
  | atom => exact atom?_forward options
  | literal => exact literal_forward options
  | textEnd => exact textEnd_forward

end Request

namespace Reader

def answer (r : Reader) : (request : Request) → Except ReadError request.Value × Reader
  | .expr => r.expr?
  | .list => r.list
  | .atom => r.atom?
  | .literal => r.literal
  | .textEnd => r.expectEnd

def after (requests : List Request) (r : Reader) : Reader :=
  requests.foldl (fun r request => (r.answer request).2) r

theorem answer_eq_run (r : Reader) (request : Request) :
    r.answer request = r.run (request.production r.options) := by
  cases request <;> rfl

section Run

variable {α : Type} {production : Production α} (forward : Forward production) (r : Reader)
include forward

theorem run_eq_ok_iff {value : α} :
    (r.run production).1 = .ok value ↔
      production r.cursor.rest = .ok value (r.run production).2.cursor.rest := by
  rw [rest_run forward]
  simp only [run]
  cases production r.cursor.rest with
  | ok value' rest => simp [Outcome.toExcept, Except.mapError]
  | error fault rest => simp [Outcome.toExcept, Except.mapError]

theorem run_of_ok {value : α} {rest : List TextUnit}
    (h : production r.cursor.rest = .ok value rest) :
    (r.run production).1 = .ok value ∧ (r.run production).2.cursor.rest = rest := by
  have left : (r.run production).2.cursor.rest = rest := by
    rw [rest_run forward, h]
    rfl
  exact ⟨(run_eq_ok_iff forward r).2 (left ▸ h), left⟩

theorem run_eq_error_iff {e : ReadError} :
    (r.run production).1 = .error e ↔
      production r.cursor.rest = .error e.fault (r.run production).2.cursor.rest ∧
        e.position = (r.run production).2.cursor.position := by
  rw [rest_run forward]
  simp only [run]
  cases production r.cursor.rest with
  | ok value rest => simp [Outcome.toExcept, Except.mapError]
  | error fault rest =>
    obtain ⟨fault', position⟩ := e
    simp [Outcome.toExcept, Except.mapError, eq_comm]

/-- A production takes the reader forward over the units that it takes off its text. -/
theorem run_hasPassed {text : String} {before : List TextUnit}
    (passed : r.cursor.HasPassed text before) :
    ∃ taken, r.cursor.rest = taken ++ (production r.cursor.rest).rest ∧
      (r.run production).2.cursor.HasPassed text (before ++ taken) := by
  obtain ⟨taken, rest_eq⟩ := forward r.cursor.rest
  have goesOn := passed.skip (r.cursor.rest.length - (production r.cursor.rest).rest.length)
  have taken_eq : r.cursor.rest.take
      (r.cursor.rest.length - (production r.cursor.rest).rest.length) = taken := by
    generalize (production r.cursor.rest).rest = rest at rest_eq
    rw [← rest_eq]
    simp
  rw [taken_eq] at goesOn
  exact ⟨taken, rest_eq.symm, goesOn⟩

theorem run_divides {text : String} {before : List TextUnit}
    (passed : r.cursor.HasPassed text before) {front behind : List Char}
    (rest_eq : r.cursor.rest = split (front ++ behind))
    (leaves : (production r.cursor.rest).rest = split behind) :
    (r.run production).2.cursor.Divides (String.ofList (join before) ++ String.ofList front)
      (String.ofList behind) text := by
  obtain ⟨taken, taken_eq, goesOn⟩ := r.run_hasPassed forward passed
  have front_eq : join taken = front := by
    have chars_eq := congrArg join taken_eq
    rw [leaves, rest_eq, join_append, join_split, join_split] at chars_eq
    exact (List.append_cancel_right chars_eq).symm
  have divides := goesOn.divides
  rwa [rest_run forward, leaves, join_split, join_append, front_eq, String.ofList_append] at divides

theorem run_divides_of_ok {text : String} {before : List TextUnit}
    (passed : r.cursor.HasPassed text before) {front behind : List Char} {value : α}
    (rest_eq : r.cursor.rest = split (front ++ behind))
    (ok_eq : production r.cursor.rest = .ok value (split behind)) :
    (r.run production).1 = .ok value ∧
      (r.run production).2.cursor.Divides (String.ofList (join before) ++ String.ofList front)
        (String.ofList behind) text := by
  have leaves : (production r.cursor.rest).rest = split behind := by
    rw [ok_eq, Outcome.rest_ok]
  exact ⟨(r.run_of_ok forward ok_eq).1, r.run_divides forward passed rest_eq leaves⟩

theorem offset_le_run {text : String} {before : List TextUnit}
    (passed : r.cursor.HasPassed text before) :
    r.cursor.offset ≤ (r.run production).2.cursor.offset := by
  obtain ⟨taken, -, goesOn⟩ := r.run_hasPassed forward passed
  rw [goesOn.offset, passed.offset, join_append, String.ofList_append, String.utf8ByteSize_append]
  exact Nat.le_add_right _ _

end Run

@[simp] theorem options_answer (r : Reader) (request : Request) :
    (r.answer request).2.options = r.options := by
  cases request <;> rfl

theorem after_concat (requests : List Request) (request : Request) (r : Reader) :
    r.after (requests ++ [request]) = ((r.after requests).answer request).2 :=
  List.foldl_append

@[simp] theorem options_after (requests : List Request) (r : Reader) :
    (r.after requests).options = r.options := by
  induction requests using List.reverseRecOn with
  | nil => rfl
  | append_singleton requests request ih => rw [after_concat, options_answer, ih]

/-- Wherever requests take a reader, it has come there from the beginning of its text. -/
theorem after_hasPassed (options : ReadOptions) (text : String) (requests : List Request) :
    ∃ before, ((ofText options text).after requests).cursor.HasPassed text before := by
  induction requests using List.reverseRecOn with
  | nil => exact ⟨[], .ofText text⟩
  | append_singleton requests request ih =>
    obtain ⟨before, passed⟩ := ih
    rw [after_concat, answer_eq_run]
    obtain ⟨taken, -, goesOn⟩ := run_hasPassed (Request.production_forward _ request) _ passed
    exact ⟨before ++ taken, goesOn⟩

end Reader

end SExpr

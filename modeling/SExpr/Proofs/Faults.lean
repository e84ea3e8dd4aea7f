import SExpr.Proofs.Session

namespace SExpr

/-- The character that the fault names, if it names one. The end of the text is none. -/
def Fault.seen? : Fault → Option (Option Char)
  | .unterminatedLiteral => none
  | .nothingMarked _ seen => some seen
  | .missingOpening seen => some seen
  | .missingClosing seen => some seen
  | .superfluous seen => some (some seen)
  | .tooDeep => none

/-- The faults that are met while an expression is read, each with the text in front of which it is
met. -/
inductive MetAt : Fault → List TextUnit → Prop where
  | unterminatedLiteral : MetAt .unterminatedLiteral []
  | nothingMarked (mark : QuoteMark) {rest : List TextUnit} (closing : Closing rest) :
      MetAt (.nothingMarked mark (peek? rest)) rest
  | missingClosing : MetAt (.missingClosing none) []
  | tooDeep {u : TextUnit} {rest : List TextUnit} (level : beginsLevel u.first) :
      MetAt .tooDeep (u :: rest)

def FailsWhereMet (inner : Production (Option Datum)) : Prop :=
  ∀ text fault rest, inner text = .error fault rest → MetAt fault rest

section Level

variable {inner : Production (Option Datum)} (reads : ReadsExpressions inner)
  (fails : FailsWhereMet inner)

include fails in
private theorem ItemRun.metAt {text rest : List TextUnit} {fault : Fault}
    (run : ItemRun inner text (.error fault rest)) : MetAt fault rest := by
  generalize outcome : Outcome.error fault rest = o at run
  induction run with
  | stop absent => cases outcome
  | fail failed =>
    cases outcome
    exact fails _ _ _ failed
  | item first others ih => exact ih (Outcome.map_eq_error_iff.1 outcome.symm).symm

include reads fails

private theorem markedWith_metAt {mark : QuoteMark} {text rest : List TextUnit} {fault : Fault}
    (h : markedWith inner mark text = .error fault rest) : MetAt fault rest := by
  unfold markedWith at h
  split at h
  · cases h
  · rename_i absent
    cases h
    exact .nothingMarked mark ((reads.absent _ _).1 absent).ends
  · rename_i failed
    cases h
    exact fails _ _ _ failed

/-- Items come to an end at the end of the text or at a closing parenthesis, so what a list misses
it misses at the end of the text. -/
theorem closeList_metAt {text rest : List TextUnit} {o : Outcome (List Datum)} {fault : Fault}
    (run : ItemRun inner text o) (h : closeList o = .error fault rest) : MetAt fault rest := by
  cases o with
  | error fault' rest' =>
    cases h
    exact run.metAt fails
  | ok items rest' =>
    rcases run.ends reads with rfl | ⟨behind, rfl⟩
    · cases h
      exact .missingClosing
    · cases h

end Level

section Productions

private theorem literal_metAt {options : ReadOptions} {text rest : List TextUnit} {fault : Fault}
    (h : literal options text = .error fault rest) : MetAt fault rest := by
  obtain ⟨rfl, rfl⟩ := literalFrom_error (Outcome.map_eq_error_iff.1 h)
  exact .unterminatedLiteral

private theorem atom?_metAt {options : ReadOptions} {text rest : List TextUnit} {fault : Fault}
    (h : atom? options text = .error fault rest) : MetAt fault rest := by
  obtain ⟨rfl, rfl⟩ := atom?_error h
  exact .unterminatedLiteral

private theorem exprWith_metAt {options : ReadOptions} {inner : Option (Production (Option Datum))}
    (reads : ∀ production ∈ inner, ReadsExpressions production)
    (fails : ∀ production ∈ inner, FailsWhereMet production) :
    FailsWhereMet (exprWith options inner) := by
  intro text fault rest failed
  have step := (exprWith_eq_iff reads).1 failed
  generalize outcome : Outcome.error fault rest = o at step
  cases step with
  | limit front level =>
    cases outcome
    exact .tooDeep level
  | marked front =>
    have marked := Outcome.map_eq_error_iff.1 outcome.symm
    exact markedWith_metAt (reads _ rfl) (fails _ rfl) marked
  | list front items =>
    have closed := Outcome.map_eq_error_iff.1 (Outcome.skipBlanks_eq_error_iff.1 outcome.symm)
    exact closeList_metAt (reads _ rfl) (fails _ rfl) items closed
  | atom unmarked notOpening =>
    have atom := Outcome.map_eq_error_iff.1 (Outcome.skipBlanks_eq_error_iff.1 outcome.symm)
    exact atom?_metAt atom

private theorem exprAt_metAt (options : ReadOptions) (depth : Nat) :
    FailsWhereMet (exprAt options depth) :=
  exprAt_induction (fun below => exprWith_metAt below.reads below.known) depth

private theorem listAt_metAt {depth : Nat} {text rest : List TextUnit} {fault : Fault}
    (h : listAt options depth text = .error fault rest) :
    MetAt fault rest ∨
      fault = .missingOpening (peek? text) ∧ rest = text ∧ peek? text ≠ some '(' := by
  by_cases opening : peek? text = some '('
  · left
    obtain ⟨content, rfl⟩ := eq_cons_of_peek? opening (by decide)
    cases depth with
    | zero =>
      cases h
      exact .tooDeep (by decide)
    | succ depth =>
      have reads := exprAt_readsExpressions options depth
      obtain ⟨o, run⟩ := exists_itemRun reads content
      rw [listAt, run.listWith_eq reads] at h
      exact closeList_metAt reads (exprAt_metAt options depth) run h
  · right
    have missing : listAt options depth text = .error (.missingOpening (peek? text)) text := by
      cases depth with
      | zero => exact listWith_of_not_opening opening _
      | succ depth => exact listWith_of_not_opening opening _
    rw [missing] at h
    cases h
    exact ⟨rfl, rfl, opening⟩

/-- A document fails as an expression does, or at a character behind it that is no blank. -/
theorem document_error_cases {options : ReadOptions} {text rest : List TextUnit} {fault : Fault}
    (h : document options text = .error fault rest) :
    MetAt fault rest ∨ ∃ c, fault = .superfluous c ∧ isBlank c = false := by
  rcases document_eq_error_iff.1 h with failed | ⟨d?, u, more, expr_eq, fault_eq, -⟩
  · exact .inl (exprAt_metAt _ _ _ _ _ failed)
  · have settled := (exprAt_readsExpressions options options.maxDepth).settled text
    rw [expr_eq] at settled
    exact .inr ⟨u.first, fault_eq, isBlank_of_skipBlanks settled⟩

end Productions

/-- What an error in answer to `request` says about the cursors before and after it. -/
structure ReadError.Describes (e : ReadError) (request : Request) (before after : Cursor) :
    Prop where
  position : e.position = after.position
  seen : ∀ seen ∈ e.fault.seen?, seen = after.peek?
  unterminatedLiteral : e.fault = .unterminatedLiteral → after.atEnd
  missingClosing : ∀ seen, e.fault = .missingClosing seen → seen = none
  nothingMarked : ∀ mark seen, e.fault = .nothingMarked mark seen → seen = none ∨ seen = some ')'
  tooDeep : e.fault = .tooDeep → ∃ c ∈ after.peek?, beginsLevel c
  missingOpening : ∀ seen, e.fault = .missingOpening seen →
    request = .list ∧ before.peek? ≠ some '('

section Requests

private theorem MetAt.describes {e : ReadError} {request : Request} {before after : Cursor}
    (met : MetAt e.fault after.rest) (position : e.position = after.position) :
    e.Describes request before after := by
  obtain ⟨fault, place⟩ := e
  obtain ⟨rest, offset, stands⟩ := after
  cases met with
  | unterminatedLiteral =>
    exact ⟨position, by simp [Fault.seen?], fun _ => rfl, by simp, by simp, by simp, by simp⟩
  | nothingMarked mark closing =>
    refine ⟨position, by simp [Fault.seen?, Cursor.peek?], by simp, by simp, ?_, by simp, by simp⟩
    intro mark' seen same
    cases same
    rcases closing with rfl | ⟨behind, rfl⟩
    · exact .inl rfl
    · exact .inr rfl
  | missingClosing =>
    refine ⟨position, by simp [Fault.seen?, Cursor.peek?, peek?], by simp, ?_, by simp, by simp,
      by simp⟩
    intro seen same
    cases same
    rfl
  | tooDeep level =>
    exact ⟨position, by simp [Fault.seen?], by simp, by simp, by simp, fun _ => ⟨_, rfl, level⟩,
      by simp⟩

private theorem describes_missingOpening {e : ReadError} {before after : Cursor}
    (fault : e.fault = .missingOpening before.peek?) (stays : after.rest = before.rest)
    (notOpening : before.peek? ≠ some '(') (position : e.position = after.position) :
    e.Describes .list before after := by
  have peek_eq : before.peek? = after.peek? := congrArg peek? stays.symm
  refine ⟨position, ?_, by simp [fault], by simp [fault], by simp [fault], by simp [fault], ?_⟩
  · rw [fault, peek_eq]
    simp [Fault.seen?]
  · intro seen same
    exact ⟨rfl, notOpening⟩

private theorem describes_superfluous {e : ReadError} {request : Request} {before after : Cursor}
    {c : Char} (fault : e.fault = .superfluous c) (next : after.peek? = some c)
    (position : e.position = after.position) : e.Describes request before after := by
  refine ⟨position, ?_, by simp [fault], by simp [fault], by simp [fault], by simp [fault],
    by simp [fault]⟩
  rw [fault, next]
  simp [Fault.seen?]

theorem Reader.answer_describes (r : Reader) (request : Request) {e : ReadError}
    (h : (r.answer request).1 = .error e) :
    e.Describes request r.cursor (r.answer request).2.cursor := by
  rw [answer_eq_run] at h ⊢
  have forward := request.production_forward r.options
  obtain ⟨failed, position⟩ := (run_eq_error_iff forward r).1 h
  generalize (r.run (request.production r.options)).2.cursor = after at failed position
  cases request with
  | expr => exact (exprAt_metAt _ _ _ _ _ failed).describes position
  | atom => exact (atom?_metAt failed).describes position
  | literal => exact (literal_metAt failed).describes position
  | list =>
    rcases listAt_metAt failed with met | ⟨fault, stays, notOpening⟩
    · exact met.describes position
    · exact describes_missingOpening fault stays notOpening position
  | textEnd =>
    have failed : SExpr.textEnd r.cursor.rest = _ := failed
    cases rest_eq : r.cursor.rest with
    | nil =>
      rw [rest_eq] at failed
      cases failed
    | cons u rest =>
      rw [rest_eq] at failed
      injection failed with fault stays
      refine describes_superfluous fault.symm ?_ position
      rw [Cursor.peek?, ← stays]
      rfl

end Requests

/-- Whatever was asked of a reader before, an error describes where the reader stands behind it. A
text that is read as a whole is never told to miss the beginning of a list. -/
theorem errors_describe (options : ReadOptions) (text : String) :
    (∀ (requests : List Request) (request : Request) (e : ReadError),
      let under := (Reader.ofText options text).after requests
      (under.answer request).1 = .error e →
        e.Describes request under.cursor (under.answer request).2.cursor) ∧
      ∀ e, read options text = .error e →
        (∀ seen, e.fault ≠ .missingOpening seen) ∧ (∀ c, e.fault ≠ .missingClosing (some c)) ∧
          ∀ c, e.fault = .superfluous c → isBlank c = false := by
  constructor
  · intro requests request e under failed
    exact under.answer_describes request failed
  · intro e failed
    obtain ⟨_, rest, -, document_eq, -⟩ := read_eq_error_iff.1 failed
    rcases document_error_cases document_eq with met | ⟨c, fault, notBlank⟩
    · generalize e.fault = fault at met
      cases met <;> simp
    · rw [fault]
      refine ⟨by simp, by simp, ?_⟩
      intro c' same
      cases same
      exact notBlank

theorem errors_describe_missingClosing :
    let under := (Reader.ofText ⟨" ", 2⟩ "a\n (b").after [.list, .expr]
    (under.answer .list).1 = .error ⟨.missingClosing none, ⟨1, 3⟩⟩ ∧
      ReadError.Describes ⟨.missingClosing none, ⟨1, 3⟩⟩ .list under.cursor
        (under.answer .list).2.cursor :=
  ⟨rfl, (errors_describe ⟨" ", 2⟩ "a\n (b").1 [.list, .expr] .list _ rfl⟩

end SExpr

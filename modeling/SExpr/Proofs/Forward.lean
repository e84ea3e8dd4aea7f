import SExpr.Reader

/-!
# Reading moves forward

Every production leaves a suffix of its text, so a reader that has run one stands exactly where it
stopped: `Reader.rest_run`.
-/

namespace SExpr

/-- What is left behind a production is the end of the text in front of it. -/
def Forward {α : Type} (production : Production α) : Prop :=
  ∀ text, (production text).rest <:+ text

theorem skipBlanks_suffix (text : List TextUnit) : skipBlanks text <:+ text :=
  List.dropWhile_suffix _

namespace Outcome

variable {α : Type}

theorem rest_skipBlanks_suffix (o : Outcome α) : o.skipBlanks.rest <:+ o.rest := by
  cases o with
  | ok value rest => exact skipBlanks_suffix rest
  | error fault rest => exact List.suffix_rfl

end Outcome

namespace Forward

variable {α β : Type} {production : Production α} (forward : Forward production)
include forward

theorem map (f : α → β) : Forward fun text => (production text).map f := by
  intro text
  rw [Outcome.rest_map]
  exact forward text

theorem skipBlanks : Forward fun text => (production text).skipBlanks :=
  fun text => (Outcome.rest_skipBlanks_suffix _).trans (forward text)

end Forward

theorem literalFrom_forward (taken : List Char) : Forward (literalFrom taken) := by
  intro text
  fun_induction literalFrom taken text with
  | case1 => exact List.suffix_rfl
  | case2 taken u rest _ ih => exact ih.trans (List.suffix_cons u rest)
  | case3 taken u rest => exact List.suffix_cons u rest
  | case4 taken u => exact List.nil_suffix
  | case5 taken u _ _ escaped rest ih =>
    exact ih.trans ((List.suffix_cons escaped rest).trans (List.suffix_cons u _))

theorem literal_forward (options : ReadOptions) : Forward (literal options) := by
  intro text
  simp only [literal, Outcome.rest_map]
  exact (literalFrom_forward [] text.tail).trans text.tail_suffix

theorem bareFrom_suffix (taken : List Char) (text : List TextUnit) :
    (bareFrom taken text).2 <:+ text := by
  fun_induction bareFrom taken text with
  | case1 => exact List.suffix_rfl
  | case2 taken u rest _ ih => exact ih.trans (List.suffix_cons u rest)
  | case3 taken u => exact List.nil_suffix
  | case4 taken u _ _ escaped rest ih =>
    exact ih.trans ((List.suffix_cons escaped rest).trans (List.suffix_cons u _))
  | case5 => exact List.suffix_rfl

theorem bare?_forward : Forward bare? := by
  intro text
  have h := bareFrom_suffix [] text
  simp only [bare?]
  split <;> simpa [Outcome.rest, *] using h

theorem atom?_forward (options : ReadOptions) : Forward (atom? options) := by
  intro text
  unfold atom?
  split
  · simpa using literal_forward options text
  · exact bare?_forward text

theorem mark?_suffix {text rest : List TextUnit} {mark : QuoteMark}
    (h : mark? text = some (mark, rest)) : rest <:+ text := by
  unfold mark? at h
  split at h
  · cases h
  · rename_i tail_eq
    cases h
    have h := text.tail_suffix
    rw [tail_eq] at h
    exact (List.suffix_cons _ rest).trans h
  · cases h
    exact text.tail_suffix

section

variable {inner : Production (Option Datum)} (forward : Forward inner)
include forward

private theorem markedWith_forward (mark : QuoteMark) : Forward (markedWith inner mark) := by
  intro text
  have h := forward text
  unfold markedWith
  split <;> simp_all [Outcome.rest]

private theorem itemsWith_forward (items : List Datum) (fuel : List TextUnit) :
    Forward (itemsWith inner items fuel) := by
  intro text
  induction fuel generalizing items text with
  | nil => exact List.suffix_rfl
  | cons _ fuel ih =>
    have h := forward text
    unfold itemsWith
    split
    · rename_i inner_eq
      rw [inner_eq] at h
      exact (ih _ _).trans h
    · simp_all [Outcome.rest]
    · simp_all [Outcome.rest]

end

theorem listWith_forward {inner : Option (Production (Option Datum))}
    (forward : ∀ production ∈ inner, Forward production) : Forward (listWith inner) := by
  intro text
  unfold listWith
  split
  · exact List.suffix_rfl
  · rename_i content production
    have h := (itemsWith_forward (forward production rfl) [] content content).trans
      (List.suffix_cons (.char '(') content)
    split <;> rename_i items_eq <;> rw [items_eq] at h
    · exact (List.suffix_cons _ _).trans h
    · exact h
    · exact h
  · exact List.suffix_rfl

theorem exprWith_forward (options : ReadOptions) {inner : Option (Production (Option Datum))}
    (forward : ∀ production ∈ inner, Forward production) :
    Forward (exprWith options inner) := by
  intro text
  refine List.IsSuffix.trans ?_ (skipBlanks_suffix text)
  unfold exprWith
  generalize skipBlanks text = text
  dsimp only
  split
  · exact List.suffix_rfl
  · rename_i mark rest production mark_eq
    simp only [Outcome.rest_map]
    exact (markedWith_forward (forward production rfl) mark rest).trans (mark?_suffix mark_eq)
  · split
    · apply (Outcome.rest_skipBlanks_suffix _).trans
      simpa using listWith_forward forward text
    · apply (Outcome.rest_skipBlanks_suffix _).trans
      simpa using atom?_forward options text

theorem exprAt_forward (options : ReadOptions) (depth : Nat) :
    Forward (exprAt options depth) :=
  exprAt_induction (fun below => exprWith_forward options below.known) depth

theorem listAt_forward (options : ReadOptions) (depth : Nat) :
    Forward (listAt options depth) := by
  cases depth with
  | zero => exact listWith_forward (by simp)
  | succ depth => exact listWith_forward (by simpa using exprAt_forward options depth)

theorem textEnd_forward : Forward textEnd := by
  intro text
  cases text with
  | nil => exact List.suffix_rfl
  | cons u rest => exact List.suffix_rfl

theorem document_forward (options : ReadOptions) : Forward (document options) := by
  intro text
  have h := exprAt_forward options options.maxDepth text
  unfold document
  split <;> rename_i expr_eq <;> rw [expr_eq] at h
  · rw [Outcome.rest_map]
    exact (textEnd_forward _).trans h
  · exact h

theorem Reader.rest_run {α : Type} {production : Production α} (forward : Forward production)
    (r : Reader) : (r.run production).2.cursor.rest = (production r.cursor.rest).rest :=
  Cursor.rest_advanceTo (forward r.cursor.rest)

end SExpr

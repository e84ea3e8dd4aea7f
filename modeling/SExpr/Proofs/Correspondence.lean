import SExpr.Datum.Map
import SExpr.Proofs.Place
import Mathlib.Data.List.Forall2

/-!
# Texts that are read alike

Two texts that correspond at every place where a reader may stand are read alike. What the places
are and how atoms may differ is left open.
-/

namespace SExpr

open TextUnit

section Alike

/-- Trees of one shape whose atoms correspond. -/
inductive Datum.Alike (atoms : String → String → Prop) : Datum → Datum → Prop where
  | atom {text text' : String} (same : atoms text text') : Alike atoms (.atom text) (.atom text')
  | list {items items' : List Datum} (same : List.Forall₂ (Alike atoms) items items') :
      Alike atoms (.list items) (.list items')

variable {atoms : String → String → Prop} {f g : String → String}

mutual

theorem Datum.Alike.mapText_eq : {d d' : Datum} → Datum.Alike atoms d d' →
    (∀ text text', .atom text ∈ d.nodes → atoms text text' → f text = g text') →
      d.mapText f = d'.mapText g
  | .atom text, _, .atom same, equal => by
    simpa using equal text _ (by simp) same
  | .list items, _, .list same, equal => by
    rw [mapText_list, mapText_list, itemsAlike_mapText_eq same]
    intro text text' d member inside
    exact equal text text' (atom_mem_nodes_list.2 ⟨d, member, inside⟩)

private theorem Datum.itemsAlike_mapText_eq : {items items' : List Datum} →
    List.Forall₂ (Datum.Alike atoms) items items' →
      (∀ text text', ∀ d ∈ items, .atom text ∈ d.nodes → atoms text text' → f text = g text') →
        items.map (mapText f) = items'.map (mapText g)
  | [], _, .nil, _ => rfl
  | d :: items, _, .cons first others, equal => by
    rw [List.map_cons, List.map_cons, first.mapText_eq, itemsAlike_mapText_eq others]
    · exact fun text text' d member => equal text text' d (List.mem_cons_of_mem _ member)
    · exact fun text text' => equal text text' d (List.mem_cons_self ..)

end

theorem Datum.Alike.eq {d d' : Datum} (alike : Datum.Alike Eq d d') : d = d' := by
  simpa using alike.mapText_eq (f := id) (g := id) fun _ _ _ same => same

private theorem Datum.Alike.marked {d d' : Datum} (alike : Datum.Alike atoms d d')
    {mark : QuoteMark} (name : atoms mark.name mark.name) :
    Datum.Alike atoms (.marked mark d) (.marked mark d') :=
  .list (.cons (.atom name) (.cons alike .nil))

end Alike

inductive Outcome.Agree {α : Type} (values : α → α → Prop)
    (texts : List TextUnit → List TextUnit → Prop) : Outcome α → Outcome α → Prop where
  | ok {value value' : α} {rest rest' : List TextUnit} (same : values value value')
      (left : texts rest rest') : Agree values texts (.ok value rest) (.ok value' rest')
  | error {fault : Fault} {rest rest' : List TextUnit} (left : texts rest rest') :
      Agree values texts (.error fault rest) (.error fault rest')

theorem Outcome.Agree.map {α β : Type} {values : α → α → Prop} {values' : β → β → Prop}
    {texts : List TextUnit → List TextUnit → Prop} {o o' : Outcome α} (h : Agree values texts o o')
    {f f' : α → β} (same : ∀ a a', values a a' → values' (f a) (f' a')) :
    Agree values' texts (o.map f) (o'.map f') := by
  cases h with
  | ok value left => exact .ok (same _ _ value) left
  | error left => exact .error left

theorem Outcome.skipBlanks_map {α β : Type} (f : α → β) (o : Outcome α) :
    (o.map f).skipBlanks = o.skipBlanks.map f := by
  cases o <;> rfl

theorem mark?_eq_none_of_peek?_eq {text text' : List TextUnit}
    (h : peek? text = peek? text') (unmarked : mark? text = none) :
    mark? text' = none := by
  cases text' with
  | nil => rfl
  | cons u' rest' =>
    obtain ⟨u, rest, rfl, first⟩ := exists_cons_of_peek? h
    rw [mark?_cons_eq_none_iff] at unmarked ⊢
    rwa [← first]

theorem ne_return_of_bracket {c : Char} (bracket : c = '(' ∨ c = ')') : c ≠ '\r' := by
  rcases bracket with rfl | rfl <;> decide

/-- How texts may correspond that are read alike: in front of them a reader may stand behind all
blanks, and `atoms` is how the atoms in them may differ. -/
structure Corresponds (options options' : ReadOptions) (atoms : String → String → Prop)
    (texts : List TextUnit → List TextUnit → Prop) : Prop where
  name : ∀ mark : QuoteMark, atoms mark.name mark.name
  peek? : ∀ {text text' : List TextUnit}, texts text text' → peek? text = peek? text'
  bracket : ∀ {c : Char} {rest rest' : List TextUnit}, c = '(' ∨ c = ')' →
    texts (.char c :: rest) (.char c :: rest') → texts (skipBlanks rest) (skipBlanks rest')
  mark? : ∀ {text text' rest : List TextUnit} {mark : QuoteMark}, texts text text' →
    mark? text = some (mark, rest) →
      ∃ rest', mark? text' = some (mark, rest') ∧ texts (skipBlanks rest) (skipBlanks rest')
  atom? : ∀ {text text' : List TextUnit}, texts text text' → SExpr.mark? text = none →
    SExpr.peek? text ≠ some '(' → Outcome.Agree (Option.Rel atoms) texts
      (atom? options text).skipBlanks (atom? options' text').skipBlanks

namespace Corresponds

variable {options options' : ReadOptions} {atoms : String → String → Prop}
  {texts : List TextUnit → List TextUnit → Prop}

def Agrees (atoms : String → String → Prop) (texts : List TextUnit → List TextUnit → Prop)
    (inner inner' : Production (Option Datum)) : Prop :=
  ∀ text text', texts (skipBlanks text) (skipBlanks text') →
    Outcome.Agree (Option.Rel (Datum.Alike atoms)) texts (inner text) (inner' text')

variable (h : Corresponds options options' atoms texts)
include h

private theorem exists_bracket {c : Char} (bracket : c = '(' ∨ c = ')') {rest text' : List TextUnit}
    (same : texts (.char c :: rest) text') :
    ∃ rest', text' = .char c :: rest' ∧ texts (skipBlanks rest) (skipBlanks rest') := by
  obtain ⟨rest', rfl⟩ := eq_cons_of_peek? (h.peek? same).symm (ne_return_of_bracket bracket)
  exact ⟨rest', rfl, h.bracket bracket same⟩

section Levels

variable {inner inner' : Production (Option Datum)} (agrees : Agrees atoms texts inner inner')
include agrees

private theorem markedWith_agree (mark : QuoteMark) {text text' : List TextUnit}
    (same : texts (skipBlanks text) (skipBlanks text')) :
    Outcome.Agree (Datum.Alike atoms) texts (markedWith inner mark text)
      (markedWith inner' mark text') := by
  have agree := agrees text text' same
  unfold markedWith
  generalize inner text = o at agree
  generalize inner' text' = o' at agree
  cases agree with
  | error left => exact .error left
  | ok value left =>
    cases value with
    | some alike => exact .ok (alike.marked (h.name mark)) left
    | none =>
      simp only [h.peek? left]
      exact .error left

variable (reads : ReadsExpressions inner) (reads' : ReadsExpressions inner')
include reads reads'

omit h in
private theorem itemRun_agree {text text' : List TextUnit}
    (same : texts (skipBlanks text) (skipBlanks text')) {o : Outcome (List Datum)}
    (run : ItemRun inner text o) :
    ∃ o', ItemRun inner' text' o' ∧
      Outcome.Agree (List.Forall₂ (Datum.Alike atoms)) texts o o' := by
  induction run generalizing text' with
  | @stop text rest absent =>
    have agree := agrees text text' same
    rw [absent] at agree
    generalize inner_eq : inner' text' = o' at agree
    cases agree with
    | ok value left =>
      cases value
      exact ⟨_, .stop inner_eq, .ok .nil left⟩
  | @fail text rest fault fails =>
    have agree := agrees text text' same
    rw [fails] at agree
    generalize inner_eq : inner' text' = o' at agree
    cases agree with
    | error left => exact ⟨_, .fail inner_eq, .error left⟩
  | @item text mid d o first others ih =>
    have agree := agrees text text' same
    have settled := reads.settled text
    have settled' := reads'.settled text'
    rw [first] at agree settled
    generalize inner_eq : inner' text' = o' at agree settled'
    cases agree with
    | ok value left =>
      cases value with
      | some alike =>
        -- Behind an item there are no blanks left to be passed over.
        rw [Outcome.rest_ok] at settled settled'
        rw [← settled, ← settled'] at left
        obtain ⟨o', run', agree⟩ := ih left
        exact ⟨_, .item inner_eq run', agree.map fun _ _ others => List.Forall₂.cons alike others⟩

private theorem closeList_agree {text text' : List TextUnit}
    (same : texts (skipBlanks text) (skipBlanks text')) {o : Outcome (List Datum)}
    (run : ItemRun inner text o) :
    ∃ o', ItemRun inner' text' o' ∧
      Outcome.Agree (Option.Rel (Datum.Alike atoms)) texts
        ((closeList o).map some).skipBlanks ((closeList o').map some).skipBlanks := by
  obtain ⟨o', run', agree⟩ := itemRun_agree agrees reads reads' same run
  refine ⟨o', run', ?_⟩
  cases agree with
  | error left => exact .error left
  | @ok items items' rest rest' alike left =>
    have peek_eq := h.peek? left
    rcases run.ends reads with rfl | ⟨behind, rfl⟩
    · rcases run'.ends reads' with rfl | ⟨behind', rfl⟩
      · exact .error left
      · cases peek_eq
    · obtain ⟨behind', rfl, same⟩ := h.exists_bracket (.inr rfl) left
      exact .ok (.some (.list alike)) same

end Levels

private theorem exprWith_agree {inner inner' : Option (Production (Option Datum))}
    (levels : Option.Rel (Agrees atoms texts) inner inner')
    (reads : ∀ production ∈ inner, ReadsExpressions production)
    (reads' : ∀ production ∈ inner', ReadsExpressions production) :
    Agrees atoms texts (exprWith options inner) (exprWith options' inner') := by
  intro text text' same
  have peek_eq := h.peek? same
  have step := (exprWith_eq_iff reads).1 (rfl : exprWith options inner text = _)
  generalize exprWith options inner text = o at step ⊢
  cases step with
  | @limit text after u front level =>
    cases levels
    rw [front] at same peek_eq
    obtain ⟨u', after', front', first⟩ := exists_cons_of_peek? peek_eq.symm
    have step' : ExprStep options' none text' _ := .limit front' (first ▸ level)
    rw [step'.exprWith_eq reads']
    exact .error (front' ▸ same)
  | marked front =>
    cases levels with
    | some agrees =>
      obtain ⟨rest', front', left⟩ := h.mark? same front
      rw [(ExprStep.marked front').exprWith_eq reads']
      exact (h.markedWith_agree agrees _ left).map fun _ _ alike => .some alike
  | list front items =>
    cases levels with
    | some agrees =>
      rw [front] at same
      obtain ⟨content', front', left⟩ := h.exists_bracket (.inl rfl) same
      obtain ⟨o', items', agree⟩ :=
        h.closeList_agree agrees (reads _ rfl) (reads' _ rfl) left items
      rw [(ExprStep.list front' items').exprWith_eq reads']
      exact agree
  | atom unmarked notOpening =>
    have agree := h.atom? same unmarked notOpening
    have unmarked' := mark?_eq_none_of_peek?_eq peek_eq unmarked
    rw [peek_eq] at notOpening
    rw [(ExprStep.atom unmarked' notOpening).exprWith_eq reads', Outcome.skipBlanks_map,
      Outcome.skipBlanks_map]
    refine agree.map fun text? text?' alike => ?_
    cases alike with
    | none => exact .none
    | some alike => exact .some (.atom alike)

theorem exprAt_agree (depth : Nat) :
    Agrees atoms texts (exprAt options depth) (exprAt options' depth) := by
  induction depth with
  | zero => exact h.exprWith_agree .none (by simp) (by simp)
  | succ depth ih =>
    exact h.exprWith_agree (.some ih) (by simpa using exprAt_readsExpressions options depth)
      (by simpa using exprAt_readsExpressions options' depth)

private theorem document_agree (limit : options.maxDepth = options'.maxDepth) (empty : atoms "" "")
    {text text' : List TextUnit} (same : texts (skipBlanks text) (skipBlanks text')) :
    Outcome.Agree (Datum.Alike atoms) texts (document options text) (document options' text') := by
  have agree := h.exprAt_agree options.maxDepth text text' same
  unfold document
  rw [← limit]
  generalize exprAt options options.maxDepth text = o at agree
  generalize exprAt options' options.maxDepth text' = o' at agree
  cases agree with
  | error left => exact .error left
  | @ok d? d?' rest rest' alike left =>
    have peek_eq := h.peek? left
    cases rest with
    | nil =>
      cases rest' with
      | cons u' rest' => cases peek_eq
      | nil =>
        refine .ok ?_ left
        cases alike with
        | none => exact .atom empty
        | some alike => exact alike
    | cons u rest =>
      obtain ⟨u', rest', rfl, first⟩ := exists_cons_of_peek? peek_eq.symm
      simp only [textEnd, Outcome.map_error, first]
      exact .error left

/-- Corresponding texts are read alike, or reading them fails with one fault at places that
correspond. -/
theorem read_agree (limit : options.maxDepth = options'.maxDepth) (empty : atoms "" "")
    {text text' : String}
    (same : texts (skipBlanks (split text.toList)) (skipBlanks (split text'.toList))) :
    (∃ d d', read options text = .ok d ∧ read options' text' = .ok d' ∧ Datum.Alike atoms d d') ∨
      ∃ fault before before' rest rest', texts rest rest' ∧
        split text.toList = before ++ rest ∧ split text'.toList = before' ++ rest' ∧
          read options text = .error ⟨fault, .behind before⟩ ∧
            read options' text' = .error ⟨fault, .behind before'⟩ := by
  have agree := h.document_agree limit empty same
  generalize document_eq : document options (split text.toList) = o at agree
  generalize document_eq' : document options' (split text'.toList) = o' at agree
  cases agree with
  | @ok d d' rest rest' alike left =>
    obtain ⟨-, -, -, rfl⟩ := document_eq_ok_iff.1 document_eq
    obtain ⟨-, -, -, rfl⟩ := document_eq_ok_iff.1 document_eq'
    exact .inl ⟨d, d', read_eq_ok_iff_document.2 document_eq,
      read_eq_ok_iff_document.2 document_eq', alike⟩
  | @error fault rest rest' left =>
    obtain ⟨before, front, fails⟩ := exists_read_eq_error document_eq
    obtain ⟨before', front', fails'⟩ := exists_read_eq_error document_eq'
    exact .inr ⟨fault, before, before', rest, rest', left, front, front', fails, fails'⟩

end Corresponds

end SExpr

import SExpr.Proofs.DepthLimit
import SExpr.Proofs.Lookahead
import SExpr.Proofs.Translation

/-!
# Texts in parentheses

A closing parenthesis behind a text ends it as the end of the text does. Only a backslash at the
end, which is dropped there, would take the parenthesis instead.
-/

namespace SExpr

open TextUnit

/-- Whether a text ends in a backslash that is not escaped and not in a string literal. `inside`
tells whether the text begins in one. -/
def endsInBackslash (inside : Bool) : List Char → Bool
  | [] => false
  | c :: text =>
    if c = '\\' then
      match text with
      | [] => !inside
      | _ :: text => endsInBackslash inside text
    else endsInBackslash (if c = '"' then !inside else inside) text

example : endsInBackslash false "\\\"a\\".toList = true ∧
    endsInBackslash false "\"a\\".toList = false := by decide

def dropsBackslash (inside : Bool) (text : List TextUnit) : Bool :=
  endsInBackslash inside (join text)

section Scan

variable (inside : Bool) (rest : List TextUnit)

theorem endsInBackslash_of_plain {c : Char} (plain : stopsLiteral c = false) (text : List Char) :
    endsInBackslash inside (c :: text) = endsInBackslash inside text := by
  have notStop : c ≠ '"' ∧ c ≠ '\\' := by simpa [stopsLiteral] using plain
  rw [endsInBackslash.eq_def]
  simp [notStop]

@[simp] theorem dropsBackslash_nil : dropsBackslash inside [] = false := rfl

@[simp] theorem dropsBackslash_quote :
    dropsBackslash inside (.char '"' :: rest) = dropsBackslash (!inside) rest := by
  rw [dropsBackslash, join_cons, chars_char, List.singleton_append, endsInBackslash.eq_def]
  simp [dropsBackslash]

@[simp] theorem dropsBackslash_backslash : dropsBackslash inside [.char '\\'] = !inside := by
  rw [dropsBackslash, join_cons, chars_char, List.singleton_append, endsInBackslash.eq_def]
  rfl

private theorem dropsBackslash_plain {u : TextUnit} (plain : stopsLiteral u.first = false) :
    dropsBackslash inside (u :: rest) = dropsBackslash inside rest := by
  unfold dropsBackslash
  cases u with
  | char c => exact endsInBackslash_of_plain inside plain _
  | crlf =>
    change endsInBackslash inside ('\r' :: '\n' :: join rest) = _
    rw [endsInBackslash_of_plain inside (by decide), endsInBackslash_of_plain inside (by decide)]

@[simp] theorem dropsBackslash_escape (escaped : TextUnit) :
    dropsBackslash inside (.char '\\' :: escaped :: rest) = dropsBackslash inside rest := by
  rw [dropsBackslash, join_cons, chars_char, List.singleton_append, endsInBackslash.eq_def]
  cases escaped with
  | char c => rfl
  | crlf => exact endsInBackslash_of_plain inside (by decide : stopsLiteral '\n' = false) _

private theorem dropsBackslash_append {front : List TextUnit}
    (plain : ∀ u ∈ front, stopsLiteral u.first = false) :
    dropsBackslash inside (front ++ rest) = dropsBackslash inside rest := by
  induction front with
  | nil => rfl
  | cons u front ih =>
    rw [List.forall_mem_cons] at plain
    rw [List.cons_append, dropsBackslash_plain _ _ plain.1, ih plain.2]

private theorem stopsLiteral_of_isBlank {c : Char} (blank : isBlank c) :
    stopsLiteral c = false := by
  by_contra stops
  have cases : c = '"' ∨ c = '\\' := by simpa [stopsLiteral, ← or_iff_not_imp_left] using stops
  rcases cases with rfl | rfl <;> exact absurd blank (by decide)

@[simp] theorem dropsBackslash_skipBlanks (text : List TextUnit) :
    dropsBackslash inside (skipBlanks text) = dropsBackslash inside text := by
  obtain ⟨gap, blank, text_eq⟩ := exists_gap_append text
  have plain := dropsBackslash_append inside (skipBlanks text) fun u h =>
    stopsLiteral_of_isBlank (blank u h)
  rw [← plain, ← text_eq]

private theorem dropsBackslash_mark (mark : QuoteMark) :
    dropsBackslash inside (mark.units ++ rest) = dropsBackslash inside rest := by
  apply dropsBackslash_append
  cases mark <;> decide

end Scan

/-- `o'` comes of the text of `o` with a closing parenthesis behind it. `drops` tells whether a
backslash is dropped at the end of the text. -/
def EndsAlike {α : Type} (drops : Bool) (o o' : Outcome α) : Prop :=
  ∀ value rest, o' = .ok value (rest ++ [.char ')']) ↔
    o = .ok value rest ∧ drops = dropsBackslash false rest

def EndsAtClosing {α : Type} (production : Production α) : Prop :=
  ∀ text, EndsAlike (dropsBackslash false text) (production text) (production (text ++ [.char ')']))

namespace EndsAlike

variable {α β : Type} {drops : Bool} {o o' : Outcome α}

private theorem error {fault fault' : Fault} {rest rest' : List TextUnit} :
    EndsAlike drops (.error fault rest : Outcome α) (.error fault' rest') := by
  intro value rest
  simp

private theorem ok {value : α} {rest : List TextUnit} (same : drops = dropsBackslash false rest) :
    EndsAlike drops (.ok value rest) (.ok value (rest ++ [.char ')'])) := by
  intro value' rest'
  simp only [Outcome.ok.injEq, List.append_cancel_right_eq]
  constructor
  · rintro ⟨rfl, rfl⟩
    exact ⟨⟨rfl, rfl⟩, same⟩
  · exact And.left

private theorem dropped {value value' : α} : EndsAlike true (.ok value []) (.ok value' []) := by
  intro value'' rest
  simp only [Outcome.ok.injEq]
  constructor
  · rintro ⟨-, nil_eq⟩
    simp at nil_eq
  · rintro ⟨⟨-, rfl⟩, dropped⟩
    cases dropped

private theorem map (h : EndsAlike drops o o') (f : α → β) :
    EndsAlike drops (o.map f) (o'.map f) := by
  intro value rest
  simp only [Outcome.map_eq_ok_iff, h _ rest]
  constructor
  · rintro ⟨a, ⟨o_eq, same⟩, value_eq⟩
    exact ⟨⟨a, o_eq, value_eq⟩, same⟩
  · rintro ⟨⟨a, o_eq, value_eq⟩, same⟩
    exact ⟨a, ⟨o_eq, same⟩, value_eq⟩

private theorem skipBlanks (h : EndsAlike drops o o') :
    EndsAlike drops o.skipBlanks o'.skipBlanks := by
  intro value rest
  simp only [Outcome.skipBlanks_eq_ok_iff]
  constructor
  · rintro ⟨more, o_eq, blanks⟩
    obtain ⟨gap, -, more_eq⟩ := exists_gap_append more
    rw [blanks, ← List.append_assoc] at more_eq
    subst more_eq
    obtain ⟨o_eq, same⟩ := (h _ _).1 o_eq
    rw [skipBlanks_append_cons (by decide)] at blanks
    have rest_eq := List.append_cancel_right blanks
    refine ⟨⟨_, o_eq, rest_eq⟩, ?_⟩
    rw [same, ← dropsBackslash_skipBlanks, rest_eq]
  · rintro ⟨⟨more, o_eq, rfl⟩, same⟩
    rw [dropsBackslash_skipBlanks] at same
    exact ⟨_, (h _ _).2 ⟨o_eq, same⟩, skipBlanks_append_cons (by decide) more []⟩

end EndsAlike

section Atoms

private theorem literalFrom_endsAlike (taken : List Char) (text : List TextUnit) :
    EndsAlike (dropsBackslash true text) (literalFrom taken text)
      (literalFrom taken (text ++ [.char ')'])) := by
  induction taken, text using literalFrom_induction with
  | nil taken =>
    rw [List.nil_append, literalFrom_plain _ _ (by decide), literalFrom_nil, literalFrom_nil]
    exact .error
  | plain taken u text plain ih =>
    rw [List.cons_append, literalFrom_plain _ _ plain, literalFrom_plain _ _ plain,
      dropsBackslash_plain _ _ plain]
    exact ih
  | close taken text =>
    rw [List.cons_append, literalFrom_close, literalFrom_close, dropsBackslash_quote]
    exact .ok rfl
  | backslash taken =>
    rw [List.singleton_append, literalFrom_escape, literalFrom_nil, literalFrom_backslash]
    exact .error
  | escape taken escaped text ih =>
    rw [List.cons_append, List.cons_append, literalFrom_escape, literalFrom_escape,
      dropsBackslash_escape]
    exact ih

theorem stopsLiteral_of_stopsAtom {c : Char} (plain : stopsAtom c = false) :
    stopsLiteral c = false := by
  simp only [stopsAtom, Bool.or_eq_false_iff] at plain
  simp [stopsLiteral, plain]

private theorem bareFrom_endsAlike (taken : List Char) (text : List TextUnit) :
    EndsAlike (dropsBackslash false text) (.ok (bareFrom taken text).1 (bareFrom taken text).2)
      (.ok (bareFrom taken (text ++ [.char ')'])).1 (bareFrom taken (text ++ [.char ')'])).2) := by
  induction taken, text using bareFrom_induction with
  | nil taken =>
    rw [List.nil_append, bareFrom_stop _ _ (by decide) (by decide), bareFrom_nil]
    exact .ok rfl
  | plain taken u text plain ih =>
    rw [List.cons_append, bareFrom_plain _ _ plain, bareFrom_plain _ _ plain,
      dropsBackslash_plain _ _ (stopsLiteral_of_stopsAtom plain)]
    exact ih
  | backslash taken =>
    -- Here the parenthesis is escaped, and so there is nothing that could be left.
    rw [List.singleton_append, bareFrom_escape, bareFrom_nil, bareFrom_backslash,
      dropsBackslash_backslash]
    exact .dropped
  | escape taken escaped text ih =>
    rw [List.cons_append, List.cons_append, bareFrom_escape, bareFrom_escape,
      dropsBackslash_escape]
    exact ih
  | stop taken u text stops notBackslash =>
    rw [List.cons_append, bareFrom_stop _ _ stops notBackslash,
      bareFrom_stop _ _ stops notBackslash]
    exact .ok rfl

private theorem atom?_endsAtClosing (options : ReadOptions) : EndsAtClosing (atom? options) := by
  intro text
  unfold atom?
  by_cases quote : peek? text = some '"'
  · obtain ⟨body, rfl⟩ := eq_cons_of_peek? quote (by decide)
    have quote' : peek? (.char '"' :: body ++ [.char ')']) = some '"' := rfl
    rw [if_pos quote, if_pos quote', dropsBackslash_quote]
    exact ((literalFrom_endsAlike [] body).map options.literalText).map some
  · have notQuote : peek? (text ++ [.char ')']) ≠ some '"' :=
      peek?_append_cons_ne quote (by decide) []
    rw [if_neg quote, if_neg notQuote, bare?_eq, bare?_eq]
    exact (bareFrom_endsAlike [] text).map _

end Atoms

section Levels

variable {options : ReadOptions} {inner : Production (Option Datum)}

private theorem markedWith_endsAtClosing (ends : EndsAtClosing inner) (mark : QuoteMark) :
    EndsAtClosing (markedWith inner mark) := by
  intro text d rest
  simp only [markedWith_eq_ok_iff, ends text _ rest]
  constructor
  · rintro ⟨marked, ⟨inner_eq, same⟩, d_eq⟩
    exact ⟨⟨marked, inner_eq, d_eq⟩, same⟩
  · rintro ⟨⟨marked, inner_eq, d_eq⟩, same⟩
    exact ⟨marked, ⟨inner_eq, same⟩, d_eq⟩

private theorem EndsAtClosing.dropsBackslash_eq (ends : EndsAtClosing inner)
    (forward : Forward inner) (looks : LooksOneAhead inner) {text rest : List TextUnit}
    {d? : Option Datum} (h : inner text = .ok d? rest) (ne_nil : rest ≠ []) :
    dropsBackslash false text = dropsBackslash false rest := by
  have goesOn : inner (text ++ [.char ')']) = _ :=
    looks.append forward (by rwa [h]) [.char ')']
  rw [h] at goesOn
  exact ((ends text d? rest).1 goesOn).2

/-- Items come to an end at a closing parenthesis as at the end of the text. -/
theorem itemRun_closing_iff (reads : ReadsExpressions inner) (looks : LooksOneAhead inner)
    (ends : EndsAtClosing inner) {text rest : List TextUnit} {items : List Datum} :
    ItemRun inner (text ++ [.char ')']) (.ok items (rest ++ [.char ')'])) ↔
      ItemRun inner text (.ok items rest) ∧
        dropsBackslash false text = dropsBackslash false rest := by
  induction items generalizing text with
  | nil =>
    rw [itemRun_nil_iff, itemRun_nil_iff]
    exact ends text none rest
  | cons d items ih =>
    rw [itemRun_cons_iff, itemRun_cons_iff]
    constructor
    · rintro ⟨mid, first, others⟩
      obtain ⟨front, mid_eq⟩ := others.suffix reads
      rw [Outcome.rest_ok, ← List.append_assoc] at mid_eq
      subst mid_eq
      obtain ⟨first, same⟩ := (ends text _ _).1 first
      obtain ⟨others, same'⟩ := ih.1 others
      exact ⟨⟨_, first, others⟩, same.trans same'⟩
    · rintro ⟨⟨mid, first, others⟩, same⟩
      -- The first item could drop a backslash only if nothing were left for the others.
      have same' : dropsBackslash false text = dropsBackslash false mid := by
        by_cases nil : mid = []
        · subst nil
          obtain rfl : rest = [] := List.suffix_nil.1 (others.suffix reads)
          exact same
        · exact ends.dropsBackslash_eq reads.forward looks first nil
      refine ⟨_, (ends text _ _).2 ⟨first, same'⟩, ih.2 ⟨others, ?_⟩⟩
      rw [← same', same]

private theorem listWith_endsAlike (reads : ReadsExpressions inner) (looks : LooksOneAhead inner)
    (ends : EndsAtClosing inner) (content : List TextUnit) :
    EndsAlike (dropsBackslash false content) (listWith (some inner) (.char '(' :: content))
      (listWith (some inner) (.char '(' :: (content ++ [.char ')']))) := by
  intro d rest
  have behind : dropsBackslash false (.char ')' :: rest) = dropsBackslash false rest :=
    dropsBackslash_plain false rest (by decide)
  have closes : ∀ items, ItemRun inner (content ++ [.char ')'])
      (.ok items (.char ')' :: (rest ++ [.char ')']))) ↔
        ItemRun inner content (.ok items (.char ')' :: rest)) ∧
          dropsBackslash false content = dropsBackslash false rest := by
    intro items
    rw [← behind, ← List.cons_append]
    exact itemRun_closing_iff reads looks ends
  rw [listWith_eq_ok_iff reads, listWith_eq_ok_iff reads]
  constructor
  · rintro ⟨items, run, d_eq⟩
    obtain ⟨run, same⟩ := (closes items).1 run
    exact ⟨⟨items, run, d_eq⟩, same⟩
  · rintro ⟨⟨items, run, d_eq⟩, same⟩
    exact ⟨items, (closes items).2 ⟨run, same⟩, d_eq⟩

private theorem exprWith_endsAtClosing {inner : Option (Production (Option Datum))}
    (reads : ∀ production ∈ inner, ReadsExpressions production)
    (looks : ∀ production ∈ inner, LooksOneAhead production)
    (ends : ∀ production ∈ inner, EndsAtClosing production) :
    EndsAtClosing (exprWith options inner) := by
  intro text
  have blanks : skipBlanks (text ++ [.char ')']) = skipBlanks text ++ [.char ')'] :=
    skipBlanks_append_cons (by decide) text []
  rw [← dropsBackslash_skipBlanks]
  obtain ⟨o, step⟩ := exists_exprStep options reads text
  rw [step.exprWith_eq reads]
  cases step with
  | limit front level =>
    rw [front] at blanks
    rw [(ExprStep.limit blanks level).exprWith_eq reads]
    exact .error
  | @marked inner _ rest mark front =>
    have front' : mark? (skipBlanks text ++ [.char ')']) = some (mark, rest ++ [.char ')']) :=
      mark?_append front (by simp)
    rw [← blanks] at front'
    rw [(ExprStep.marked front').exprWith_eq reads, (mark?_eq_some_iff.1 front).1,
      dropsBackslash_mark]
    exact (markedWith_endsAtClosing (ends inner rfl) mark rest).map some
  | @list inner _ content o front items =>
    rw [front, List.cons_append] at blanks
    rw [exprWith_list (by rw [blanks]; rfl), blanks, ← items.listWith_eq (reads inner rfl), front,
      dropsBackslash_plain false content (by decide)]
    exact ((listWith_endsAlike (reads inner rfl) (looks inner rfl) (ends inner rfl)
      content).map some).skipBlanks
  | atom unmarked notOpening =>
    rw [exprWith_append_cons reads unmarked notOpening (by decide) (by decide)]
    exact ((atom?_endsAtClosing options _).map _).skipBlanks

private theorem exprAt_endsAtClosing (options : ReadOptions) (depth : Nat) :
    EndsAtClosing (exprAt options depth) :=
  exprAt_induction (fun below => exprWith_endsAtClosing below.reads
    (below.all (exprAt_looksOneAhead options)) below.known) depth

end Levels

namespace Reader

/-- Asked for an expression again and again, the reader brings the data one after the other. -/
inductive Brings : Reader → List Datum → Reader → Prop where
  | done (r : Reader) : Brings r [] r
  | item {r last : Reader} {d : Datum} {items : List Datum} (first : r.expr?.1 = .ok (some d))
      (others : Brings r.expr?.2 items last) : Brings r (d :: items) last

namespace Brings

variable {r last : Reader} {items : List Datum}

private theorem eq_after (brings : r.Brings items last) :
    last = r.after (List.replicate items.length .expr) := by
  induction brings with
  | done r => rfl
  | item first others ih => exact ih

private theorem itemRun_error (brings : r.Brings items last) {e : ReadError}
    (fails : last.expr?.1 = .error e) :
    ItemRun (exprAt r.options r.options.maxDepth) r.cursor.rest
      (.error e.fault last.expr?.2.cursor.rest) := by
  induction brings with
  | done r => exact .fail ((r.run_eq_error_iff (exprAt_forward _ _)).1 fails).1
  | @item r last d items first others ih =>
    exact .item ((r.run_eq_ok_iff (exprAt_forward _ _)).1 first) (ih fails)

end Brings

private theorem expectEnd_eq_ok_iff (r : Reader) : r.expectEnd.1 = .ok () ↔ r.cursor.rest = [] := by
  rw [expectEnd, run]
  cases r.cursor.rest with
  | nil => simp [textEnd, Outcome.toExcept, Except.mapError]
  | cons u rest => simp [textEnd, Outcome.toExcept, Except.mapError]

private theorem exists_brings_iff (r : Reader) (items : List Datum) :
    (∃ last, r.Brings items last ∧ last.expr?.1 = .ok none ∧ last.expr?.2.expectEnd.1 = .ok ()) ↔
      ItemRun (exprAt r.options r.options.maxDepth) r.cursor.rest (.ok items []) := by
  have forward := exprAt_forward r.options r.options.maxDepth
  induction items generalizing r with
  | nil =>
    rw [itemRun_nil_iff]
    constructor
    · rintro ⟨last, brings, none_eq, atEnd⟩
      cases brings
      rw [expectEnd_eq_ok_iff] at atEnd
      rw [← atEnd]
      exact (r.run_eq_ok_iff forward).1 none_eq
    · intro absent
      obtain ⟨none_eq, left⟩ := r.run_of_ok forward absent
      exact ⟨r, .done r, none_eq, (expectEnd_eq_ok_iff _).2 left⟩
  | cons d items ih =>
    rw [itemRun_cons_iff]
    constructor
    · rintro ⟨last, brings, ends⟩
      cases brings with
      | item first others =>
        exact ⟨_, (r.run_eq_ok_iff forward).1 first, (ih r.expr?.2 forward).1 ⟨last, others, ends⟩⟩
    · rintro ⟨mid, first, others⟩
      obtain ⟨some_eq, left⟩ := r.run_of_ok forward first
      rw [← left] at others
      obtain ⟨last, brings, ends⟩ := (ih r.expr?.2 forward).2 others
      exact ⟨last, .item some_eq brings, ends⟩

end Reader

section Enclosed

theorem split_enclosed (text : String) :
    split ("(" ++ text ++ ")").toList = .char '(' :: (split text.toList ++ [.char ')']) := by
  have toList_eq : ("(" ++ text ++ ")").toList = '(' :: (text.toList ++ [')']) := by simp
  rw [toList_eq, split_cons_of_ne (by decide), split_append _ (by decide)]
  rfl

private theorem Position.behind_opening (units : List TextUnit) :
    behind (.char '(' :: units) = ⟨(behind units).line,
      if (behind units).line = 0 then (behind units).column + 1 else (behind units).column⟩ := by
  have moved : behind (.char '(' :: units) = translate ⟨0, 1⟩ (behind units) :=
    foldl_after_eq ⟨0, 1⟩ units
  rw [moved, translate]
  by_cases first : (behind units).line = 0
  · simp [first, Nat.add_comm]
  · simp [first]

private theorem exprAt_enclosed (emptyLiteral : String) (depth : Nat) (content : List TextUnit) :
    exprAt ⟨emptyLiteral, depth + 1⟩ (depth + 1) (.char '(' :: content) =
      ((listWith (some (exprAt ⟨emptyLiteral, depth⟩ depth)) (.char '(' :: content)).map
        some).skipBlanks := by
  have noBlank : skipBlanks (.char '(' :: content) = .char '(' :: content :=
    skipBlanks_cons_of_not_blank (by decide) content
  rw [exprAt, exprAt_maxDepth emptyLiteral (depth + 1) depth, exprWith_list (by rw [noBlank]; rfl),
    noBlank]

private theorem eq_nil_of_skipBlanks {text rest : List TextUnit}
    (suffix : .char ')' :: rest <:+ text ++ [.char ')']) (blanks : skipBlanks rest = []) :
    rest = [] := by
  cases rest using List.reverseRecOn with
  | nil => rfl
  | append_singleton rest u =>
    obtain ⟨front, text_eq⟩ := suffix
    rw [← List.cons_append, ← List.append_assoc] at text_eq
    obtain ⟨-, last_eq⟩ := List.append_inj' text_eq rfl
    cases last_eq
    rw [skipBlanks_append_cons (by decide)] at blanks
    simp at blanks

theorem exprAt_enclosed_eq_ok_iff (emptyLiteral : String) (depth : Nat) (text : List TextUnit)
    (items : List Datum) :
    exprAt ⟨emptyLiteral, depth + 1⟩ (depth + 1) (.char '(' :: (text ++ [.char ')'])) =
        .ok (some (.list items)) [] ↔
      ItemRun (exprAt ⟨emptyLiteral, depth⟩ depth) text (.ok items []) ∧
        dropsBackslash false text = false := by
  have reads := exprAt_readsExpressions ⟨emptyLiteral, depth⟩ depth
  have closes : ItemRun (exprAt ⟨emptyLiteral, depth⟩ depth) (text ++ [.char ')'])
      (.ok items ([] ++ [.char ')'])) ↔ _ :=
    itemRun_closing_iff reads (exprAt_looksOneAhead _ _) (exprAt_endsAtClosing _ _)
  rw [List.nil_append, dropsBackslash_nil] at closes
  rw [exprAt_enclosed, ← closes, Outcome.skipBlanks_eq_ok_iff]
  simp only [Outcome.map_eq_ok_iff, listWith_eq_ok_iff reads]
  constructor
  · rintro ⟨rest, ⟨d, ⟨items', run, rfl⟩, some_eq⟩, blanks⟩
    cases some_eq
    rwa [eq_nil_of_skipBlanks (run.suffix reads) blanks] at run
  · intro run
    exact ⟨[], ⟨_, ⟨items, run, rfl⟩, rfl⟩, rfl⟩

private theorem document_enclosed_error {emptyLiteral : String} {depth : Nat}
    {text rest : List TextUnit} {fault : Fault}
    (run : ItemRun (exprAt ⟨emptyLiteral, depth⟩ depth) text (.error fault rest))
    (ne_nil : rest ≠ []) :
    document ⟨emptyLiteral, depth + 1⟩ (.char '(' :: (text ++ [.char ')'])) =
      .error fault (rest ++ [.char ')']) := by
  have reads := exprAt_readsExpressions ⟨emptyLiteral, depth⟩ depth
  have goesOn := run.append reads (exprAt_looksOneAhead _ _) ne_nil [.char ')']
  rw [document_eq_error_iff]
  left
  rw [exprAt_enclosed, goesOn.listWith_eq reads]
  rfl

/-- Putting a text in parentheses makes a list of the data that a reader of the text brings, unless
the text ends in a backslash, which takes the closing parenthesis. Where the reader fails in front
of a character, the list fails in the same place, one column further on in the first line. -/
theorem read_enclosed (emptyLiteral : String) (depth : Nat) (text : String) :
    let reader := Reader.ofText ⟨emptyLiteral, depth⟩ text
    let enclosed := read ⟨emptyLiteral, depth + 1⟩ ("(" ++ text ++ ")")
    (∀ items, enclosed = .ok (.list items) ↔
      (∃ last, reader.Brings items last ∧ last.expr?.1 = .ok none ∧
        last.expr?.2.expectEnd.1 = .ok ()) ∧ endsInBackslash false text.toList = false) ∧
      ∀ items last e, reader.Brings items last → last.expr?.1 = .error e →
        last.expr?.2.cursor.peek? ≠ none →
          enclosed = .error ⟨e.fault, e.position.line,
            if e.position.line = 0 then e.position.column + 1 else e.position.column⟩ := by
  intro reader enclosed
  constructor
  · intro items
    have drops : dropsBackslash false (split text.toList) = endsInBackslash false text.toList := by
      rw [dropsBackslash, join_split]
    rw [reader.exists_brings_iff, ← drops]
    refine Iff.trans ?_ (exprAt_enclosed_eq_ok_iff emptyLiteral depth (split text.toList) items)
    rw [← split_enclosed, read_eq_ok_iff_exprAt]
    simp
  · intro items last e brings fails shown
    have run := brings.itemRun_error fails
    have position_eq := ((last.run_eq_error_iff (exprAt_forward _ _)).1 fails).2
    obtain ⟨before, passed⟩ : ∃ before, last.expr?.2.cursor.HasPassed text before := by
      have passed := Reader.after_hasPassed ⟨emptyLiteral, depth⟩ text
        (List.replicate items.length .expr ++ [.expr])
      rwa [Reader.after_concat, ← brings.eq_after] at passed
    have ne_nil : last.expr?.2.cursor.rest ≠ [] := by
      intro nil
      simp [Cursor.peek?, nil, peek?] at shown
    rw [read_eq_error_iff, split_enclosed]
    refine ⟨.char '(' :: before, _, ?_, document_enclosed_error run ne_nil, ?_⟩
    · rw [passed.units, List.append_assoc]
      rfl
    · rw [Position.behind_opening, position_eq, ← passed.position]
      rfl

theorem read_enclosed_nothingMarked :
    ∃ last, (Reader.ofText ⟨"", 1⟩ "a ')").Brings [.atom "a"] last ∧
      last.expr?.1 = .error ⟨.nothingMarked .quote (some ')'), ⟨0, 3⟩⟩ ∧
        read ⟨"", 2⟩ ("(" ++ "a ')" ++ ")") =
          .error ⟨.nothingMarked .quote (some ')'), ⟨0, 4⟩⟩ := by
  have first : (Reader.ofText ⟨"", 1⟩ "a ')").expr?.1 = .ok (some (.atom "a")) := by
    decide +kernel
  have brings := Reader.Brings.item first (.done _)
  have fails : (Reader.ofText ⟨"", 1⟩ "a ')").expr?.2.expr?.1 =
      .error ⟨.nothingMarked .quote (some ')'), ⟨0, 3⟩⟩ := by
    decide +kernel
  have shown : (Reader.ofText ⟨"", 1⟩ "a ')").expr?.2.expr?.2.cursor.peek? ≠ none := by
    decide +kernel
  exact ⟨_, brings, fails, (read_enclosed "" 1 "a ')").2 _ _ _ brings fails shown⟩

end Enclosed

end SExpr

import SExpr.Proofs.Enclosing

namespace SExpr

open TextUnit

section Texts

theorem length_le_join (units : List TextUnit) : units.length ≤ (join units).length := by
  induction units with
  | nil => simp
  | cons u units ih =>
    have nonempty := List.length_pos_iff.2 u.chars_ne_nil
    rw [join_cons, List.length_append, List.length_cons]
    omega

private theorem first_mem_chars (u : TextUnit) : u.first ∈ u.chars := by
  cases u <;> simp [chars, first]

/-- Whether there is nothing behind the blanks at the front of a text, or nothing but a backslash,
or a closing parenthesis. -/
def NothingToRead (text : List Char) : Prop :=
  let front := text.dropWhile isBlank
  front = [] ∨ front = ['\\'] ∨ front.head? = some ')'

private theorem exists_absent_split_iff {text : List Char} :
    (∃ rest, Absent (split text) rest) ↔ text = [] ∨ text = ['\\'] ∨ text.head? = some ')' := by
  constructor
  · intro absent
    obtain ⟨rest, absent⟩ := absent
    generalize units_eq : split text = units at absent
    cases absent with
    | atEnd => exact .inl (split_eq_nil units_eq)
    | backslash =>
      obtain ⟨behind, rfl, nil_eq⟩ := split_eq_cons units_eq
      rw [split_eq_nil nil_eq.symm]
      exact .inr (.inl rfl)
    | closing more =>
      obtain ⟨behind, rfl, -⟩ := split_eq_cons units_eq
      exact .inr (.inr rfl)
  · intro nothing
    rcases nothing with rfl | rfl | head
    · exact ⟨[], .atEnd⟩
    · exact ⟨[], .backslash⟩
    · obtain ⟨behind, rfl⟩ := List.head?_eq_some_iff.1 head
      rw [split_cons_of_ne (by decide)]
      exact ⟨_, .closing _⟩

theorem nothingToRead_iff {text : List Char} :
    NothingToRead text ↔ ∃ rest, Absent (skipBlanks (split text)) rest := by
  rw [skipBlanks_split, exists_absent_split_iff]
  rfl

private theorem peek?_of_closing {text : List TextUnit} (closing : Closing text) :
    peek? text = none ∨ peek? text = some ')' := by
  rcases closing with rfl | ⟨behind, rfl⟩
  · exact .inl rfl
  · exact .inr rfl

end Texts

/-- `inner` reads the items one after the other from the front of a text, and leaves `left`. -/
inductive Takes (inner : Production (Option Datum)) :
    (text : List TextUnit) → List Datum → (left : List TextUnit) → Prop where
  | done (text : List TextUnit) : Takes inner text [] text
  | item {text mid left : List TextUnit} {d : Datum} {items : List Datum}
      (first : inner text = .ok (some d) mid) (others : Takes inner mid items left) :
      Takes inner text (d :: items) left

section Loop

variable {inner : Production (Option Datum)} (reads : ReadsExpressions inner)

include reads in
private theorem ReadsExpressions.exists_taken {text rest : List TextUnit} {d : Datum}
    (h : inner text = .ok (some d) rest) :
    ∃ taken, text = taken ++ rest ∧ ∃ u ∈ taken, isBlank u.first = false := by
  -- The blanks in front are taken too, and it is behind them that something is read.
  rw [← reads.blanks] at h
  have shorter := reads.progress _ _ _ h
  have suffix := reads.forward (skipBlanks text)
  rw [h] at suffix
  obtain ⟨front, front_eq⟩ := suffix
  obtain ⟨gap, -, text_eq⟩ := exists_gap_append text
  cases front with
  | nil =>
    rw [← front_eq] at shorter
    exact absurd shorter (Nat.lt_irrefl _)
  | cons u front =>
    refine ⟨gap ++ u :: front, ?_, u, by simp, isBlank_of_skipBlanks front_eq.symm⟩
    rw [List.append_assoc, ← Outcome.rest_ok (some d) rest, front_eq, ← text_eq]

include reads in
/-- The loop comes to an end, and every item that it reads takes up a unit. -/
theorem exists_takes (text : List TextUnit) :
    ∃ items left, Takes inner text items left ∧ (∀ d rest, inner left ≠ .ok (some d) rest) ∧
      items.length ≤ text.length := by
  by_cases more : ∃ d rest, inner text = .ok (some d) rest
  · obtain ⟨d, rest, first⟩ := more
    have shorter := reads.progress text d rest first
    obtain ⟨items, left, others, ends, bound⟩ := exists_takes rest
    refine ⟨d :: items, left, .item first others, ends, ?_⟩
    rw [List.length_cons]
    omega
  · simp only [not_exists] at more
    exact ⟨[], text, .done text, more, Nat.zero_le _⟩
termination_by text.length

private theorem Takes.itemRun {text left : List TextUnit} {items : List Datum}
    (takes : Takes inner text items left) (ends : ∀ d rest, inner left ≠ .ok (some d) rest) :
    ItemRun inner text ((inner left).map fun _ => items) := by
  induction takes with
  | done text =>
    cases last : inner text with
    | error fault rest => exact .fail last
    | ok d? rest =>
      cases d? with
      | none => exact .stop last
      | some d => exact absurd last (ends d rest)
  | @item text mid left d items first others ih =>
    have goesOn := ItemRun.item first (ih ends)
    cases last : inner left <;> simpa [last] using goesOn

end Loop

namespace Reader

private theorem exists_brings {r : Reader} {items : List Datum} {left : List TextUnit}
    (takes : Takes (exprAt r.options r.options.maxDepth) r.cursor.rest items left) :
    ∃ last, r.Brings items last ∧ last.cursor.rest = left ∧ last.options = r.options := by
  generalize text_eq : r.cursor.rest = text at takes
  generalize inner_eq : exprAt r.options r.options.maxDepth = inner at takes
  induction takes generalizing r with
  | done text => exact ⟨r, .done r, text_eq, rfl⟩
  | @item text mid left d items first others ih =>
    subst inner_eq text_eq
    obtain ⟨some_eq, mid_eq⟩ := r.run_of_ok (exprAt_forward _ _) first
    obtain ⟨last, brings, left_eq, options_eq⟩ := @ih r.expr?.2 mid_eq rfl
    exact ⟨last, .item some_eq brings, left_eq, options_eq⟩

variable (r : Reader)

theorem expr?_none :
    (r.expr?.1 = .ok none ↔ ∃ rest, Absent (skipBlanks r.cursor.rest) rest) ∧
      (r.expr?.1 = .ok none →
        r.expr?.2.cursor.peek? = none ∨ r.expr?.2.cursor.peek? = some ')') := by
  have reads := exprAt_readsExpressions r.options r.options.maxDepth
  have absent_of_none : r.expr?.1 = .ok none →
      Absent (skipBlanks r.cursor.rest) r.expr?.2.cursor.rest := by
    intro none_eq
    exact (reads.absent _ _).1 ((r.run_eq_ok_iff reads.forward).1 none_eq)
  refine ⟨⟨fun none_eq => ⟨_, absent_of_none none_eq⟩, ?_⟩, ?_⟩
  · intro absent
    obtain ⟨rest, absent⟩ := absent
    exact (r.run_of_ok reads.forward ((reads.absent _ _).2 absent)).1
  · intro none_eq
    exact peek?_of_closing (absent_of_none none_eq).ends

theorem expr?_some {text : String} {before : List TextUnit}
    (passed : r.cursor.HasPassed text before) {d : Datum} (h : r.expr?.1 = .ok (some d)) :
    ∃ taken behind : String, String.ofList (join r.cursor.rest) = taken ++ behind ∧
      (∃ c ∈ taken.toList, isBlank c = false) ∧
        r.expr?.2.cursor.Divides (String.ofList (join before) ++ taken) behind text ∧
          ∀ c ∈ r.expr?.2.cursor.peek?, isBlank c = false := by
  have reads := exprAt_readsExpressions r.options r.options.maxDepth
  have some_eq := (r.run_eq_ok_iff reads.forward).1 h
  obtain ⟨taken, rest_eq, u, inside, notBlank⟩ := reads.exists_taken some_eq
  obtain ⟨taken', rest_eq', goesOn⟩ := r.run_hasPassed reads.forward passed
  obtain rfl : taken = taken' := by
    rw [some_eq, Outcome.rest_ok, rest_eq] at rest_eq'
    exact List.append_cancel_right rest_eq'
  refine ⟨String.ofList (join taken), String.ofList (join r.expr?.2.cursor.rest), ?_, ?_, ?_, ?_⟩
  · rw [← String.ofList_append, ← join_append, rest_eq]
    rfl
  · refine ⟨u.first, ?_, notBlank⟩
    rw [String.toList_ofList]
    exact List.mem_flatMap_of_mem inside (first_mem_chars u)
  · have divides := goesOn.divides
    rwa [join_append, String.ofList_append] at divides
  · intro c next
    have settled := reads.settled r.cursor.rest
    rw [some_eq, Outcome.rest_ok] at settled
    obtain ⟨v, rest, cons_eq, rfl⟩ := exists_cons_of_peek? next
    exact isBlank_of_skipBlanks (settled.trans cons_eq)

/-- Wherever requests take a reader, a further request for an expression is answered with none
exactly if there is nothing to read. With an expression the reader moves over a character that is no
blank, and it never moves back. So it can be asked for no more expressions than there are characters
left, and neither can the items of a list. -/
theorem expr?_goes_forward (options : ReadOptions) (text : String) (requests : List Request) :
    let under := (ofText options text).after requests
    let here := under.expr?
    ∃ before left : String, under.cursor.Divides before left text ∧
      (here.1 = .ok none ↔ NothingToRead left.toList) ∧
      (here.1 = .ok none → here.2.cursor.peek? = none ∨ here.2.cursor.peek? = some ')') ∧
      (∀ d, here.1 = .ok (some d) → ∃ taken behind : String, left = taken ++ behind ∧
        (∃ c ∈ taken.toList, isBlank c = false) ∧
          here.2.cursor.Divides (before ++ taken) behind text ∧
            ∀ c ∈ here.2.cursor.peek?, isBlank c = false) ∧
      (∀ request, under.cursor.offset ≤ (under.answer request).2.cursor.offset) ∧
      (∃ items last, under.Brings items last ∧ (∀ d, last.expr?.1 ≠ .ok (some d)) ∧
        items.length ≤ left.length) ∧
      ∀ depth content, let inner := exprAt options depth
        ∃ items rest, Takes inner content items rest ∧ (∀ d more, inner rest ≠ .ok (some d) more) ∧
          items.length ≤ (join content).length ∧
            listAt options (depth + 1) (.char '(' :: content) =
              closeList ((inner rest).map fun _ => items) := by
  intro under here
  obtain ⟨before, passed⟩ := after_hasPassed options text requests
  have divides := passed.divides
  have nothing := under.expr?_none
  refine ⟨_, _, divides, ?_, nothing.2, fun d h => under.expr?_some passed h, ?_, ?_, ?_⟩
  · rw [nothingToRead_iff, ← divides.rest_eq]
    exact nothing.1
  · intro request
    rw [answer_eq_run]
    exact offset_le_run (request.production_forward _) under passed
  · have reads := exprAt_readsExpressions under.options under.options.maxDepth
    obtain ⟨items, rest, takes, ends, bound⟩ := exists_takes reads under.cursor.rest
    obtain ⟨last, brings, rest_eq, options_eq⟩ := exists_brings takes
    refine ⟨items, last, brings, ?_, ?_⟩
    · intro d some_eq
      have some_eq := (last.run_eq_ok_iff (exprAt_forward _ _)).1 some_eq
      rw [rest_eq, options_eq] at some_eq
      exact ends d _ some_eq
    · rw [String.length_ofList]
      exact Nat.le_trans bound (length_le_join _)
  · intro depth content inner
    have reads := exprAt_readsExpressions options depth
    obtain ⟨items, rest, takes, ends, bound⟩ := exists_takes reads content
    refine ⟨items, rest, takes, ends, Nat.le_trans bound (length_le_join content), ?_⟩
    exact (takes.itemRun ends).listWith_eq reads

end Reader

end SExpr

import SExpr.Proofs.Atom

/-!
# What expressions have in common

No expression is found in exactly three places: at the end of the text, behind a lone backslash
there, and at a closing parenthesis. From this the loop over the items of a list is a plain
recursion: `ItemRun`.
-/

namespace SExpr

def QuoteMark.units (mark : QuoteMark) : List TextUnit :=
  mark.sign.toList.map .char

section Mark

theorem QuoteMark.ofChar?_eq_some_iff {c : Char} {mark : QuoteMark} :
    QuoteMark.ofChar? c = some mark ↔
      c = '\x27' ∧ mark = .quote ∨ c = '\x60' ∧ mark = .quasiquote ∨ c = ',' ∧ mark = .unquote := by
  by_cases h₁ : c = '\x27'
  · subst h₁
    cases mark <;> decide
  · by_cases h₂ : c = '\x60'
    · subst h₂
      cases mark <;> decide
    · by_cases h₃ : c = ','
      · subst h₃
        cases mark <;> decide
      · simp only [ofChar?, signs, List.lookup_cons, List.lookup_nil, beq_eq_false_iff_ne.2 h₁,
          beq_eq_false_iff_ne.2 h₂, beq_eq_false_iff_ne.2 h₃]
        simp [h₁, h₂, h₃]

theorem mark?_cons (u : TextUnit) (rest : List TextUnit) :
    mark? (u :: rest) =
      match QuoteMark.ofChar? u.first, rest with
      | none, _ => none
      | some .unquote, .char '@' :: rest => some (.unquoteSplicing, rest)
      | some mark, rest => some (mark, rest) :=
  rfl

theorem mark?_cons_eq_none_iff {u : TextUnit} {rest : List TextUnit} :
    mark? (u :: rest) = none ↔ QuoteMark.ofChar? u.first = none := by
  rw [mark?_cons]
  split <;> simp_all

private theorem mark?_append_cons_eq_none {text : List TextUnit} {u : TextUnit}
    (unmarked : mark? text = none) (hu : QuoteMark.ofChar? u.first = none)
    (more : List TextUnit) : mark? (text ++ u :: more) = none := by
  cases text with
  | nil => exact mark?_cons_eq_none_iff.2 hu
  | cons v text => exact mark?_cons_eq_none_iff.2 (mark?_cons_eq_none_iff.1 unmarked)

private theorem QuoteMark.units_of_ofChar? {u : TextUnit} {mark : QuoteMark}
    (h : QuoteMark.ofChar? u.first = some mark) : mark.units = [u] := by
  obtain ⟨first, rfl⟩ | ⟨first, rfl⟩ | ⟨first, rfl⟩ := QuoteMark.ofChar?_eq_some_iff.1 h <;>
    rw [TextUnit.eq_char_of_first first (by decide)] <;> decide

theorem mark?_eq_some_iff {text rest : List TextUnit} {mark : QuoteMark} :
    mark? text = some (mark, rest) ↔
      text = mark.units ++ rest ∧ (mark = .unquote → rest.head? ≠ some (.char '@')) := by
  constructor
  · intro h
    cases text with
    | nil => cases h
    | cons u more =>
      rw [mark?_cons] at h
      split at h
      · cases h
      · rename_i sign_eq
        have comma : u = .char ',' := (List.cons.inj (QuoteMark.units_of_ofChar? sign_eq)).1.symm
        cases h
        exact ⟨comma ▸ rfl, by simp⟩
      · rename_i sign_eq not_splicing
        cases h
        refine ⟨by rw [QuoteMark.units_of_ofChar? sign_eq]; rfl, ?_⟩
        rintro rfl head
        obtain ⟨tail, rfl⟩ := List.head?_eq_some_iff.1 head
        exact not_splicing tail rfl rfl
  · rintro ⟨rfl, alone⟩
    cases mark with
    | quote => rfl
    | quasiquote => rfl
    | unquoteSplicing => rfl
    | unquote =>
      change mark? (.char ',' :: rest) = _
      rw [mark?_cons]
      split
      · contradiction
      · exact absurd rfl (alone rfl)
      · simp_all [TextUnit.first, QuoteMark.ofChar?_eq_some_iff]

theorem mark?_append {text rest : List TextUnit} {mark : QuoteMark}
    (h : mark? text = some (mark, rest)) {more : List TextUnit}
    (head : more.head? ≠ some (.char '@')) : mark? (text ++ more) = some (mark, rest ++ more) := by
  obtain ⟨rfl, alone⟩ := mark?_eq_some_iff.1 h
  refine mark?_eq_some_iff.2 ⟨List.append_assoc .., fun unquote => ?_⟩
  cases rest with
  | nil => exact head
  | cons u rest => exact alone unquote

theorem QuoteMark.units_ne_nil (mark : QuoteMark) : mark.units ≠ [] := by
  cases mark <;> decide

end Mark

def beginsLevel (c : Char) : Bool :=
  c == '(' || (QuoteMark.ofChar? c).isSome

/-- No expression stands in front of the text, where there are no blanks, and `rest` is left when
that shows. -/
inductive Absent : (text rest : List TextUnit) → Prop where
  | atEnd : Absent [] []
  | backslash : Absent [.char '\\'] []
  | closing (rest : List TextUnit) : Absent (.char ')' :: rest) (.char ')' :: rest)

def Closing (text : List TextUnit) : Prop :=
  text = [] ∨ ∃ behind, text = .char ')' :: behind

theorem Closing.skipBlanks {text : List TextUnit} (closing : Closing text) :
    SExpr.skipBlanks text = text := by
  rcases closing with rfl | ⟨behind, rfl⟩
  · rfl
  · exact skipBlanks_cons_of_not_blank (by decide) behind

theorem Closing.absent {text : List TextUnit} (closing : Closing text) : Absent text text := by
  rcases closing with rfl | ⟨behind, rfl⟩
  · exact .atEnd
  · exact .closing behind

theorem Absent.ends {text rest : List TextUnit} (absent : Absent text rest) : Closing rest := by
  cases absent with
  | atEnd => exact .inl rfl
  | backslash => exact .inl rfl
  | closing behind => exact .inr ⟨behind, rfl⟩

/-- The one character that stops every scan and begins nothing is the closing parenthesis. -/
theorem eq_closing_of_stopsAtom {u : TextUnit} (stops : stopsAtom u.first)
    (notBlank : isBlank u.first = false) (notBackslash : u.first ≠ '\\') (notQuote : u.first ≠ '"')
    (notOpening : u.first ≠ '(') (unmarked : QuoteMark.ofChar? u.first = none) :
    u = .char ')' := by
  refine TextUnit.eq_char_of_first ?_ (by decide)
  simpa [stopsAtom, notBlank, notBackslash, notQuote, notOpening, unmarked] using stops

theorem atom?_eq_none_iff {options : ReadOptions} {text rest : List TextUnit}
    (noBlank : skipBlanks text = text) (unmarked : mark? text = none)
    (notOpening : peek? text ≠ some '(') :
    atom? options text = .ok none rest ↔ Absent text rest := by
  unfold atom?
  split
  · rename_i quote
    -- A literal is an atom or a fault.
    have notSome : ∀ o : Outcome String, o.map some ≠ .ok none rest := by
      intro o
      cases o <;> simp
    refine ⟨fun h => absurd h (notSome _), fun h => ?_⟩
    cases h <;> simp [peek?, TextUnit.first] at quote
  · rename_i notQuote
    -- A bare atom is empty in three places, and these are where no expression begins.
    rcases bareFrom_cases text with rfl | rfl | ⟨u, more, rfl, stops, notBackslash⟩ | ⟨ne_nil, _⟩
    · rw [bare?_of_nil (bareFrom_nil [])]
      constructor
      · intro h
        cases h
        exact .atEnd
      · intro absent
        cases absent
        rfl
    · rw [bare?_of_nil (bareFrom_backslash [])]
      constructor
      · intro h
        cases h
        exact .backslash
      · intro absent
        cases absent
        rfl
    · rw [bare?_of_nil (bareFrom_stop [] more stops notBackslash)]
      obtain rfl : u = .char ')' := by
        refine eq_closing_of_stopsAtom stops (isBlank_of_skipBlanks noBlank) notBackslash ?_ ?_
          (mark?_cons_eq_none_iff.1 unmarked)
        · simpa [peek?] using notQuote
        · simpa [peek?] using notOpening
      constructor
      · intro h
        cases h
        exact .closing more
      · intro absent
        cases absent
        rfl
    · rw [bare?_of_ne_nil ne_nil]
      refine ⟨fun h => by simp at h, fun h => absurd ?_ ne_nil⟩
      cases h with
      | atEnd => rfl
      | backslash => rfl
      | closing rest => rw [bareFrom_stop _ _ (by decide) (by decide)]; rfl

/-- What every production does that reads expressions. -/
structure ReadsExpressions (inner : Production (Option Datum)) : Prop where
  forward : Forward inner
  progress : ∀ text d rest, inner text = .ok (some d) rest → rest.length < text.length
  settled : ∀ text, skipBlanks (inner text).rest = (inner text).rest
  blanks : ∀ text, inner (skipBlanks text) = inner text
  absent : ∀ text rest, inner text = .ok none rest ↔ Absent (skipBlanks text) rest

/-- The items at the front of a text, read one after the other for as long as there are any. -/
inductive ItemRun (inner : Production (Option Datum)) :
    List TextUnit → Outcome (List Datum) → Prop where
  | stop {text rest : List TextUnit} (absent : inner text = .ok none rest) :
      ItemRun inner text (.ok [] rest)
  | fail {text rest : List TextUnit} {fault : Fault} (fails : inner text = .error fault rest) :
      ItemRun inner text (.error fault rest)
  | item {text mid : List TextUnit} {d : Datum} {o : Outcome (List Datum)}
      (first : inner text = .ok (some d) mid) (others : ItemRun inner mid o) :
      ItemRun inner text (o.map (d :: ·))

theorem itemRun_nil_iff {inner : Production (Option Datum)} {text rest : List TextUnit} :
    ItemRun inner text (.ok [] rest) ↔ inner text = .ok none rest := by
  refine ⟨fun run => ?_, .stop⟩
  generalize outcome : Outcome.ok [] rest = o at run
  cases run with
  | stop absent =>
    cases outcome
    exact absent
  | fail fails => cases outcome
  | item first others =>
    obtain ⟨items, -, nil_eq⟩ := Outcome.map_eq_ok_iff.1 outcome.symm
    cases nil_eq

theorem itemRun_cons_iff {inner : Production (Option Datum)} {text rest : List TextUnit}
    {d : Datum} {items : List Datum} :
    ItemRun inner text (.ok (d :: items) rest) ↔
      ∃ mid, inner text = .ok (some d) mid ∧ ItemRun inner mid (.ok items rest) := by
  constructor
  · intro run
    generalize outcome : Outcome.ok (d :: items) rest = o at run
    cases run with
    | stop absent => cases outcome
    | fail fails => cases outcome
    | item first others =>
      obtain ⟨_, rfl, cons_eq⟩ := Outcome.map_eq_ok_iff.1 outcome.symm
      cases cons_eq
      exact ⟨_, first, others⟩
  · rintro ⟨mid, first, others⟩
    exact .item first others

def closeList : Outcome (List Datum) → Outcome Datum
  | .ok items (.char ')' :: rest) => .ok (.list items) rest
  | .ok _ rest => .error (.missingClosing (peek? rest)) rest
  | .error fault rest => .error fault rest

theorem listWith_of_not_opening {text : List TextUnit} (notOpening : peek? text ≠ some '(')
    (inner : Option (Production (Option Datum))) :
    listWith inner text = .error (.missingOpening (peek? text)) text := by
  unfold listWith
  split
  · exact absurd rfl notOpening
  · exact absurd rfl notOpening
  · rfl

section Items

variable {inner : Production (Option Datum)} (reads : ReadsExpressions inner)
include reads

theorem ReadsExpressions.at_end : inner [] = .ok none [] :=
  (reads.absent [] []).2 .atEnd

theorem exists_itemRun (text : List TextUnit) : ∃ o, ItemRun inner text o := by
  cases h : inner text with
  | error fault rest => exact ⟨_, .fail h⟩
  | ok d? rest =>
    cases d? with
    | none => exact ⟨_, .stop h⟩
    | some d =>
      have shorter := reads.progress text d rest h
      obtain ⟨o, others⟩ := exists_itemRun rest
      exact ⟨_, .item h others⟩
termination_by text.length

/-- The units of the text are enough for the loop over its items. -/
theorem ItemRun.itemsWith_eq {text : List TextUnit} {o : Outcome (List Datum)}
    (run : ItemRun inner text o) (items : List Datum) (fuel : List TextUnit)
    (enough : text.length ≤ fuel.length) :
    itemsWith inner items fuel text = o.map (items.reverse ++ ·) := by
  -- With no fuel left there is no text left, since every item took up a unit.
  induction run generalizing items fuel with
  | @stop text rest absent =>
    cases fuel with
    | nil =>
      obtain rfl := List.length_eq_zero_iff.1 (Nat.le_zero.1 enough)
      rw [reads.at_end] at absent
      cases absent
      simp [itemsWith]
    | cons _ fuel => simp [itemsWith, absent]
  | @fail text rest fault fails =>
    cases fuel with
    | nil =>
      obtain rfl := List.length_eq_zero_iff.1 (Nat.le_zero.1 enough)
      rw [reads.at_end] at fails
      cases fails
    | cons _ fuel => simp [itemsWith, fails]
  | @item text mid d o first others ih =>
    have shorter := reads.progress text d mid first
    cases fuel with
    | nil =>
      rw [List.length_nil] at enough
      omega
    | cons _ fuel =>
      simp only [itemsWith, first]
      rw [ih (d :: items) fuel (by simp at enough; omega)]
      cases o <;> simp

theorem ItemRun.listWith_eq {content : List TextUnit} {o : Outcome (List Datum)}
    (run : ItemRun inner content o) :
    listWith (some inner) (.char '(' :: content) = closeList o := by
  have items_eq : itemsWith inner [] content content = o := by
    rw [run.itemsWith_eq reads [] content (Nat.le_refl _)]
    cases o <;> simp
  have closes : listWith (some inner) (.char '(' :: content) =
      closeList (itemsWith inner [] content content) := rfl
  rw [closes, items_eq]

theorem ItemRun.suffix {text : List TextUnit} {o : Outcome (List Datum)}
    (run : ItemRun inner text o) : o.rest <:+ text := by
  induction run with
  | @stop text rest absent =>
    have here := reads.forward text
    rwa [absent] at here
  | @fail text rest fault fails =>
    have here := reads.forward text
    rwa [fails] at here
  | @item text mid d o first others ih =>
    have here := reads.forward text
    rw [first] at here
    rw [Outcome.rest_map]
    exact ih.trans here

theorem ItemRun.skipBlanks {text : List TextUnit} {o : Outcome (List Datum)}
    (run : ItemRun inner text o) : ItemRun inner (SExpr.skipBlanks text) o := by
  cases run with
  | stop absent => exact .stop (reads.blanks text ▸ absent)
  | fail fails => exact .fail (reads.blanks text ▸ fails)
  | item first others => exact .item (reads.blanks text ▸ first) others

private theorem ItemRun.settled {text : List TextUnit} {o : Outcome (List Datum)}
    (run : ItemRun inner text o) : SExpr.skipBlanks o.rest = o.rest := by
  induction run with
  | @stop text rest absent =>
    have here := reads.settled text
    rwa [absent] at here
  | @fail text rest fault fails =>
    have here := reads.settled text
    rwa [fails] at here
  | @item text mid d o first others ih => rwa [Outcome.rest_map]

theorem ItemRun.ends {text rest : List TextUnit} {items : List Datum}
    (run : ItemRun inner text (.ok items rest)) : Closing rest := by
  generalize outcome : Outcome.ok items rest = o at run
  induction run generalizing items with
  | stop absent =>
    cases outcome
    exact ((reads.absent _ _).1 absent).ends
  | fail fails => cases outcome
  | item first others ih =>
    obtain ⟨others', rfl, -⟩ := Outcome.map_eq_ok_iff.1 outcome.symm
    exact ih rfl

end Items

section Steps

private theorem Absent.noMark {text rest : List TextUnit} (absent : Absent text rest) :
    mark? text = none ∧ peek? text ≠ some '(' := by
  cases absent <;> exact ⟨rfl, by simp [peek?, TextUnit.first]⟩

theorem rest_markedWith (inner : Production (Option Datum)) (mark : QuoteMark)
    (text : List TextUnit) : (markedWith inner mark text).rest = (inner text).rest := by
  unfold markedWith
  split <;> simp_all

theorem markedWith_eq_ok_iff {inner : Production (Option Datum)} {mark : QuoteMark}
    {text rest : List TextUnit} {d : Datum} :
    markedWith inner mark text = .ok d rest ↔
      ∃ marked, inner text = .ok (some marked) rest ∧ d = .marked mark marked := by
  unfold markedWith
  split <;> rename_i inner_eq <;> rw [inner_eq]
  · simp [eq_comm, and_comm]
  · simp
  · simp

theorem closeList_suffix (o : Outcome (List Datum)) : (closeList o).rest <:+ o.rest := by
  unfold closeList
  split
  · exact List.suffix_cons ..
  · exact List.suffix_rfl
  · exact List.suffix_rfl

theorem closeList_ok {o : Outcome (List Datum)} {d : Datum} {rest : List TextUnit}
    (h : closeList o = .ok d rest) :
    ∃ items, o = .ok items (.char ')' :: rest) ∧ d = .list items := by
  unfold closeList at h
  split at h
  · cases h
    exact ⟨_, rfl, rfl⟩
  · cases h
  · cases h

private theorem closeList_error {o : Outcome (List Datum)} {fault : Fault} {rest : List TextUnit}
    (h : closeList o = .error fault rest) : o.rest = rest := by
  unfold closeList at h
  split at h
  · cases h
  · cases h
    rfl
  · cases h
    rfl

theorem listWith_eq_ok_iff {inner : Production (Option Datum)} (reads : ReadsExpressions inner)
    {content rest : List TextUnit} {d : Datum} :
    listWith (some inner) (.char '(' :: content) = .ok d rest ↔
      ∃ items, ItemRun inner content (.ok items (.char ')' :: rest)) ∧ d = .list items := by
  constructor
  · intro h
    obtain ⟨o, run⟩ := exists_itemRun reads content
    rw [run.listWith_eq reads] at h
    obtain ⟨items, rfl, d_eq⟩ := closeList_ok h
    exact ⟨items, run, d_eq⟩
  · rintro ⟨items, run, rfl⟩
    exact run.listWith_eq reads

theorem atom?_error {options : ReadOptions} {text rest : List TextUnit} {fault : Fault}
    (h : atom? options text = .error fault rest) :
    fault = .unterminatedLiteral ∧ rest = [] := by
  unfold atom? at h
  split at h
  · unfold literal at h
    cases scan : literalFrom [] text.tail with
    | ok chars rest => simp [scan] at h
    | error fault' rest' =>
      rw [scan] at h
      cases h
      exact literalFrom_error scan
  · unfold bare? at h
    split at h <;> cases h

private theorem atom?_progress {options : ReadOptions} {text rest : List TextUnit} {atom : String}
    (h : atom? options text = .ok (some atom) rest) : rest.length < text.length := by
  unfold atom? at h
  split at h
  · rename_i quote
    cases text with
    | nil => cases quote
    | cons u body =>
      have shorter := (literalFrom_forward [] body).length_le
      unfold literal at h
      cases scan : literalFrom [] body with
      | error fault rest => simp [scan] at h
      | ok chars rest' =>
        simp only [List.tail_cons, scan, Outcome.map_ok, Outcome.ok.injEq] at h
        obtain ⟨-, rfl⟩ := h
        rw [scan] at shorter
        exact Nat.lt_succ_of_le shorter
  · rcases bareFrom_cases text with
      rfl | rfl | ⟨u, more, rfl, stops, notBackslash⟩ | ⟨ne_nil, shorter⟩
    · rw [bare?_of_nil (bareFrom_nil [])] at h
      cases h
    · rw [bare?_of_nil (bareFrom_backslash [])] at h
      cases h
    · rw [bare?_of_nil (bareFrom_stop [] more stops notBackslash)] at h
      cases h
    · rw [bare?_of_ne_nil ne_nil] at h
      cases h
      exact shorter

end Steps

section Levels

variable {options : ReadOptions} {inner : Option (Production (Option Datum))}

/-- The ways in which an expression is read one level down: not at all where the limit is, behind a
mark, as a list, or as an atom. -/
inductive ExprStep (options : ReadOptions) :
    Option (Production (Option Datum)) → List TextUnit → Outcome (Option Datum) → Prop where
  | limit {text after : List TextUnit} {u : TextUnit} (front : skipBlanks text = u :: after)
      (level : beginsLevel u.first) : ExprStep options none text (.error .tooDeep (u :: after))
  | marked {inner : Production (Option Datum)} {text rest : List TextUnit} {mark : QuoteMark}
      (front : mark? (skipBlanks text) = some (mark, rest)) :
      ExprStep options (some inner) text ((markedWith inner mark rest).map some)
  | list {inner : Production (Option Datum)} {text content : List TextUnit}
      {o : Outcome (List Datum)} (front : skipBlanks text = .char '(' :: content)
      (items : ItemRun inner content o) :
      ExprStep options (some inner) text ((closeList o).map some).skipBlanks
  | atom {inner : Option (Production (Option Datum))} {text : List TextUnit}
      (unmarked : mark? (skipBlanks text) = none)
      (notOpening : peek? (skipBlanks text) ≠ some '(') :
      ExprStep options inner text
        ((atom? options (skipBlanks text)).map (Option.map .atom)).skipBlanks

private theorem front_cases (text : List TextUnit) :
    (∃ mark rest, mark? text = some (mark, rest)) ∨ (∃ content, text = .char '(' :: content) ∨
      (mark? text = none ∧ peek? text ≠ some '(') := by
  cases h : mark? text with
  | some found => exact .inl ⟨found.1, found.2, rfl⟩
  | none =>
    refine .inr ?_
    by_cases opening : peek? text = some '('
    · exact .inl (eq_cons_of_peek? opening (by decide))
    · exact .inr ⟨rfl, opening⟩

theorem exists_exprStep (options : ReadOptions)
    (reads : ∀ production ∈ inner, ReadsExpressions production)
    (text : List TextUnit) : ∃ o, ExprStep options inner text o := by
  rcases front_cases (skipBlanks text) with
    ⟨mark, rest, marked⟩ | ⟨content, opening⟩ | ⟨unmarked, notOpening⟩
  · cases inner with
    | some inner => exact ⟨_, .marked marked⟩
    | none =>
      cases front : skipBlanks text with
      | nil =>
        rw [front] at marked
        cases marked
      | cons u after =>
        refine ⟨_, .limit front ?_⟩
        rw [beginsLevel, Bool.or_eq_true, Option.isSome_iff_ne_none]
        refine .inr fun unmarked => ?_
        rw [front, mark?_cons_eq_none_iff.2 unmarked] at marked
        cases marked
  · cases inner with
    | some inner =>
      obtain ⟨o, run⟩ := exists_itemRun (reads inner rfl) content
      exact ⟨_, .list opening run⟩
    | none => exact ⟨_, .limit opening (by decide)⟩
  · exact ⟨_, .atom unmarked notOpening⟩

theorem ExprStep.exprWith_eq (reads : ∀ production ∈ inner, ReadsExpressions production)
    {text : List TextUnit} {o : Outcome (Option Datum)} (step : ExprStep options inner text o) :
    exprWith options inner text = o := by
  cases step with
  | @limit text after u front level =>
    simp only [exprWith, front]
    cases marked : mark? (u :: after) with
    | some found => rfl
    | none =>
      have opening : u.first = '(' := by
        simpa [beginsLevel, mark?_cons_eq_none_iff.1 marked] using level
      rw [TextUnit.eq_char_of_first opening (by decide)]
      rfl
  | marked front => simp only [exprWith, front]
  | @list inner text content o front items =>
    simp only [exprWith, front]
    exact congrArg (fun o => (o.map some).skipBlanks) (items.listWith_eq (reads inner rfl))
  | atom unmarked notOpening =>
    simp only [exprWith, unmarked]
    rw [if_neg notOpening]

theorem exprWith_eq_iff (reads : ∀ production ∈ inner, ReadsExpressions production)
    {text : List TextUnit} {o : Outcome (Option Datum)} :
    exprWith options inner text = o ↔ ExprStep options inner text o := by
  refine ⟨?_, ExprStep.exprWith_eq reads⟩
  rintro rfl
  obtain ⟨o, step⟩ := exists_exprStep options reads text
  rwa [step.exprWith_eq reads]

/-- Where an atom may begin, one may still begin with a unit behind the text that begins nothing
else. -/
theorem exprWith_append_cons (reads : ∀ production ∈ inner, ReadsExpressions production)
    {text : List TextUnit} (unmarked : mark? (skipBlanks text) = none)
    (notOpening : peek? (skipBlanks text) ≠ some '(') {u : TextUnit}
    (notBlank : isBlank u.first = false) (level : beginsLevel u.first = false)
    (more : List TextUnit) :
    exprWith options inner (text ++ u :: more) =
      ((atom? options (skipBlanks text ++ u :: more)).map (Option.map .atom)).skipBlanks := by
  have plain : u.first ≠ '(' ∧ QuoteMark.ofChar? u.first = none := by
    simpa [beginsLevel] using level
  rw [← skipBlanks_append_cons notBlank]
  refine (ExprStep.atom ?_ ?_).exprWith_eq reads
  · rw [skipBlanks_append_cons notBlank]
    exact mark?_append_cons_eq_none unmarked plain.2 more
  · rw [skipBlanks_append_cons notBlank]
    exact peek?_append_cons_ne notOpening plain.1 more

private theorem Outcome.settled_skipBlanks {α : Type} {o : Outcome α}
    (h : ∀ fault rest, o = .error fault rest → SExpr.skipBlanks rest = rest) :
    SExpr.skipBlanks o.skipBlanks.rest = o.skipBlanks.rest := by
  cases o with
  | ok value rest => exact skipBlanks_skipBlanks rest
  | error fault rest => exact h fault rest rfl

private theorem ExprStep.settled (reads : ∀ production ∈ inner, ReadsExpressions production)
    {text : List TextUnit} {o : Outcome (Option Datum)} (step : ExprStep options inner text o) :
    skipBlanks o.rest = o.rest := by
  cases step with
  | limit front level => exact front ▸ skipBlanks_skipBlanks _
  | @marked inner text rest mark front =>
    rw [Outcome.rest_map, rest_markedWith]
    exact (reads inner rfl).settled rest
  | @list inner text content o front items =>
    apply Outcome.settled_skipBlanks
    intro fault rest h
    rw [← closeList_error (Outcome.map_eq_error_iff.1 h)]
    exact items.settled (reads inner rfl)
  | atom unmarked notOpening =>
    apply Outcome.settled_skipBlanks
    intro fault rest h
    obtain ⟨-, rfl⟩ := atom?_error (Outcome.map_eq_error_iff.1 h)
    rfl

private theorem rest_marked_lt {inner : Production (Option Datum)} (reads : ReadsExpressions inner)
    {text rest : List TextUnit} {mark : QuoteMark} (front : mark? text = some (mark, rest)) :
    ((markedWith inner mark rest).map some).rest.length < text.length := by
  have shorter := (reads.forward rest).length_le
  have units := List.length_pos_iff.2 mark.units_ne_nil
  rw [(mark?_eq_some_iff.1 front).1, Outcome.rest_map, rest_markedWith, List.length_append]
  omega

private theorem rest_list_lt {inner : Production (Option Datum)} (reads : ReadsExpressions inner)
    {content : List TextUnit} {o : Outcome (List Datum)} (items : ItemRun inner content o) :
    ((closeList o).map some).skipBlanks.rest.length < content.length + 1 := by
  have blanks := ((closeList o).map some).rest_skipBlanks_suffix.length_le
  have closing := ((closeList_suffix o).trans (items.suffix reads)).length_le
  rw [Outcome.rest_map] at blanks
  omega

theorem ExprStep.begun {inner : Production (Option Datum)} (reads : ReadsExpressions inner)
    {text : List TextUnit} {o : Outcome (Option Datum)}
    (step : ExprStep options (some inner) text o) {u : TextUnit} {after : List TextUnit}
    (front : skipBlanks text = u :: after)
    (level : beginsLevel u.first) : o.rest.length < (u :: after).length := by
  cases step with
  | marked marked =>
    rw [front] at marked
    exact rest_marked_lt reads marked
  | list opening items =>
    rw [← front, opening]
    exact rest_list_lt reads items
  | atom unmarked notOpening =>
    rw [front] at unmarked notOpening
    rw [beginsLevel, mark?_cons_eq_none_iff.1 unmarked] at level
    exact absurd (by simpa using level) (by simpa [peek?] using notOpening)

private theorem ExprStep.progress (reads : ∀ production ∈ inner, ReadsExpressions production)
    {text rest : List TextUnit} {d : Datum}
    (step : ExprStep options inner text (.ok (some d) rest)) : rest.length < text.length := by
  apply Nat.lt_of_lt_of_le _ (skipBlanks_suffix text).length_le
  generalize outcome : Outcome.ok (some d) rest = o at step
  have rest_eq : rest = o.rest := congrArg Outcome.rest outcome
  cases step with
  | limit front level => cases outcome
  | marked front =>
    rw [rest_eq]
    exact rest_marked_lt (reads _ rfl) front
  | list front items =>
    rw [rest_eq, front]
    exact rest_list_lt (reads _ rfl) items
  | atom unmarked notOpening =>
    obtain ⟨more, atom, rfl⟩ := Outcome.skipBlanks_eq_ok_iff.1 outcome.symm
    obtain ⟨text?, atom, some_eq⟩ := Outcome.map_eq_ok_iff.1 atom
    obtain ⟨chars, rfl, -⟩ := Option.map_eq_some_iff.1 some_eq
    exact Nat.lt_of_le_of_lt (skipBlanks_suffix more).length_le (atom?_progress atom)

private theorem ExprStep.absent {text rest : List TextUnit}
    (step : ExprStep options inner text (.ok none rest)) : Absent (skipBlanks text) rest := by
  generalize outcome : Outcome.ok none rest = o at step
  cases step with
  | limit front level => cases outcome
  | marked front =>
    obtain ⟨d, -, none_eq⟩ := Outcome.map_eq_ok_iff.1 outcome.symm
    cases none_eq
  | list front items =>
    obtain ⟨more, closed, -⟩ := Outcome.skipBlanks_eq_ok_iff.1 outcome.symm
    obtain ⟨d, -, none_eq⟩ := Outcome.map_eq_ok_iff.1 closed
    cases none_eq
  | atom unmarked notOpening =>
    obtain ⟨more, atom, rfl⟩ := Outcome.skipBlanks_eq_ok_iff.1 outcome.symm
    obtain ⟨text?, atom, none_eq⟩ := Outcome.map_eq_ok_iff.1 atom
    obtain rfl := Option.map_eq_none_iff.1 none_eq
    have absent := (atom?_eq_none_iff (skipBlanks_skipBlanks text) unmarked notOpening).1 atom
    rwa [absent.ends.skipBlanks]

private theorem Absent.exprStep {text rest : List TextUnit}
    (absent : Absent (skipBlanks text) rest) :
    ExprStep options inner text (.ok none rest) := by
  have step : ExprStep options inner text _ := .atom absent.noMark.1 absent.noMark.2
  have atom : atom? options (skipBlanks text) = .ok none rest :=
    (atom?_eq_none_iff (skipBlanks_skipBlanks text) absent.noMark.1 absent.noMark.2).2 absent
  rw [atom] at step
  simpa [absent.ends.skipBlanks] using step

private theorem exprWith_readsExpressions
    (reads : ∀ production ∈ inner, ReadsExpressions production) :
    ReadsExpressions (exprWith options inner) where
  forward := exprWith_forward options fun production h => (reads production h).forward
  progress _ _ _ h := ((exprWith_eq_iff reads).1 h).progress reads
  settled _ := ((exprWith_eq_iff reads).1 rfl).settled reads
  blanks text := by simp only [exprWith, skipBlanks_skipBlanks]
  absent _ _ := ⟨fun h => ((exprWith_eq_iff reads).1 h).absent,
    fun absent => absent.exprStep.exprWith_eq reads⟩

theorem exprAt_readsExpressions (options : ReadOptions) (depth : Nat) :
    ReadsExpressions (exprAt options depth) :=
  exprAt_induction (fun below => exprWith_readsExpressions below.known) depth

theorem LevelBelow.reads {holds : Nat → Production (Option Datum) → Prop} {depth : Nat}
    (below : LevelBelow options holds depth inner) :
    ∀ production ∈ inner, ReadsExpressions production :=
  below.all (exprAt_readsExpressions options)

end Levels

end SExpr

import SExpr.Proofs.Lookahead

/-!
# Texts that can be completed

A letter is always a way to go on, in an atom or as one, and then what is open can be closed.
-/

namespace SExpr

open TextUnit

def Fault.IsMissing (fault : Fault) : Prop :=
  fault = .unterminatedLiteral ∨ fault = .missingClosing none ∨
    ∃ mark, fault = .nothingMarked mark none

def letter : TextUnit := .char 'a'

/-- Whether the letter and then some more characters make `text` one that is `done` in front of
any end. -/
def Extends (text : List TextUnit) (done : (text tail : List TextUnit) → Prop) : Prop :=
  ∃ more : List Char, '\r' ∉ more ∧
    ∀ tail, Closing tail → done (text ++ letter :: (more.map .char ++ tail)) tail

private theorem Extends.of_letter {text : List TextUnit}
    {done : List TextUnit → List TextUnit → Prop}
    (h : ∀ tail, Closing tail → done (text ++ letter :: tail) tail) : Extends text done :=
  ⟨[], by simp, h⟩

private theorem Extends.imp {text text' : List TextUnit}
    {done done' : List TextUnit → List TextUnit → Prop} (h : Extends text done)
    (goesOn : ∀ more tail, Closing tail → done (text ++ letter :: more) tail →
      done' (text' ++ letter :: more) tail) : Extends text' done' := by
  obtain ⟨more, noReturn, ends⟩ := h
  exact ⟨more, noReturn, fun tail closing => goesOn _ tail closing (ends tail closing)⟩

/-- How a production goes on that has come to the end of `text`, according to what it has come to
there. -/
inductive Continues (inner : Production (Option Datum)) (text : List TextUnit) :
    Outcome (Option Datum) → Prop where
  | none (ends : ∀ tail, Closing tail → ∃ d, inner (text ++ letter :: tail) = .ok (some d) tail) :
      Continues inner text (.ok none [])
  | some {d : Datum} (ends : ∀ tail, Closing tail → ∃ d',
        inner (text ++ letter :: tail) = .ok (some d') tail ∨
          inner (text ++ letter :: tail) = .ok (some d') (letter :: tail)) :
      Continues inner text (.ok (some d) [])
  | error {fault : Fault} (missing : fault.IsMissing)
      (ends : Extends text fun text tail => ∃ d, inner text = .ok (some d) tail) :
      Continues inner text (.error fault [])

/-- Whatever `inner` has come to at the end of a text, it can go on to an expression. -/
def Completable (inner : Production (Option Datum)) : Prop :=
  ∀ text, (inner text).rest = [] → Continues inner text (inner text)

section Letter

private theorem skipBlanks_append_letter (text more : List TextUnit) :
    skipBlanks (text ++ letter :: more) = skipBlanks text ++ letter :: more :=
  skipBlanks_append_cons (by decide) text more

end Letter

section Atoms

variable {tail : List TextUnit}

private theorem literalFrom_append {taken chars : List Char} {text rest : List TextUnit}
    (h : literalFrom taken text = .ok chars rest) (more : List TextUnit) :
    literalFrom taken (text ++ more) = .ok chars (rest ++ more) := by
  induction taken, text using literalFrom_induction with
  | nil taken =>
    rw [literalFrom_nil] at h
    cases h
  | plain taken u text plain ih =>
    rw [literalFrom_plain _ _ plain] at h
    rw [List.cons_append, literalFrom_plain _ _ plain, ih h]
  | close taken text =>
    rw [literalFrom_close] at h
    cases h
    exact literalFrom_close taken _
  | backslash taken =>
    rw [literalFrom_backslash] at h
    cases h
  | escape taken escaped text ih =>
    rw [literalFrom_escape] at h
    rw [List.cons_append, List.cons_append, literalFrom_escape, ih h]

private theorem literalFrom_append_letter {taken : List Char} {text rest : List TextUnit}
    {fault : Fault} (h : literalFrom taken text = .error fault rest) (tail : List TextUnit) :
    ∃ chars, literalFrom taken (text ++ letter :: .char '"' :: tail) = .ok chars tail := by
  induction taken, text using literalFrom_induction with
  | nil taken =>
    rw [List.nil_append, literalFrom_plain _ _ (by decide)]
    exact ⟨_, literalFrom_close _ _⟩
  | plain taken u text plain ih =>
    rw [literalFrom_plain _ _ plain] at h
    rw [List.cons_append, literalFrom_plain _ _ plain]
    exact ih h
  | close taken text =>
    rw [literalFrom_close] at h
    cases h
  | backslash taken =>
    rw [List.singleton_append, literalFrom_escape]
    exact ⟨_, literalFrom_close _ _⟩
  | escape taken escaped text ih =>
    rw [literalFrom_escape] at h
    rw [List.cons_append, List.cons_append, literalFrom_escape]
    exact ih h

private theorem bareFrom_closing (taken : List Char) (closing : Closing tail) :
    bareFrom taken tail = (taken.reverse, tail) := by
  rcases closing with rfl | ⟨behind, rfl⟩
  · exact bareFrom_nil taken
  · exact bareFrom_stop taken behind (by decide) (by decide)

private theorem bareFrom_append_letter {taken : List Char} {text : List TextUnit}
    (h : (bareFrom taken text).2 = []) (closing : Closing tail) :
    (bareFrom taken (text ++ letter :: tail)).1 ≠ [] ∧
      (bareFrom taken (text ++ letter :: tail)).2 = tail := by
  induction taken, text using bareFrom_induction with
  | nil taken =>
    rw [List.nil_append, bareFrom_plain _ _ (by decide), bareFrom_closing _ closing]
    simp [letter]
  | plain taken u text plain ih =>
    rw [bareFrom_plain _ _ plain] at h
    rw [List.cons_append, bareFrom_plain _ _ plain]
    exact ih h
  | backslash taken =>
    rw [List.singleton_append, bareFrom_escape, bareFrom_closing _ closing]
    simp [letter]
  | escape taken escaped text ih =>
    rw [bareFrom_escape] at h
    rw [List.cons_append, List.cons_append, bareFrom_escape]
    exact ih h
  | stop taken u text stops notBackslash =>
    rw [bareFrom_stop _ _ stops notBackslash] at h
    cases h

private theorem bare?_append_letter {text : List TextUnit} (h : (bareFrom [] text).2 = [])
    (closing : Closing tail) :
    ∃ atom, bare? (text ++ letter :: tail) = .ok (some atom) tail := by
  obtain ⟨taken, stops⟩ := bareFrom_append_letter h closing
  exact ⟨_, (bare?_of_ne_nil taken).trans (by rw [stops])⟩

end Atoms

section Front

variable {options : ReadOptions} {inner : Option (Production (Option Datum))}
  {text : List TextUnit} (reads : ∀ production ∈ inner, ReadsExpressions production)
include reads

private theorem exprWith_append_letter (unmarked : mark? (skipBlanks text) = none)
    (notOpening : peek? (skipBlanks text) ≠ some '(') (more : List TextUnit) :
    exprWith options inner (text ++ letter :: more) =
      ((atom? options (skipBlanks text ++ letter :: more)).map (Option.map .atom)).skipBlanks :=
  exprWith_append_cons reads unmarked notOpening (by decide) (by decide) more

private theorem literal_continues {body : List TextUnit}
    (front : skipBlanks text = .char '"' :: body)
    (atEnd : (exprWith options inner text).rest = []) :
    Continues (exprWith options inner) text (exprWith options inner text) := by
  have unmarked : mark? (skipBlanks text) = none := by rw [front]; rfl
  have notOpening : peek? (skipBlanks text) ≠ some '(' := by rw [front]; simp [peek?]
  have goesOn : ∀ more, exprWith options inner (text ++ letter :: more) = _ :=
    exprWith_append_letter reads unmarked notOpening
  rw [(ExprStep.atom unmarked notOpening).exprWith_eq reads] at atEnd ⊢
  rw [front] at atEnd goesOn ⊢
  have atom_eq : ∀ body, atom? options (.char '"' :: body) =
      ((literalFrom [] body).map options.literalText).map some := fun _ => rfl
  simp only [List.cons_append, atom_eq] at atEnd goesOn ⊢
  cases scan : literalFrom [] body with
  | ok chars rest =>
    simp only [scan, Outcome.map_ok, Outcome.skipBlanks_ok, Outcome.rest_ok] at atEnd ⊢
    rw [atEnd]
    refine .some fun tail _ => ⟨.atom (options.literalText chars), .inr ?_⟩
    rw [goesOn, literalFrom_append scan]
    simp [skipBlanks_append_letter, atEnd]
  | error fault rest =>
    obtain ⟨rfl, rfl⟩ := literalFrom_error scan
    refine .error (.inl rfl) ⟨['"'], by decide, fun tail closing => ?_⟩
    obtain ⟨chars, scan⟩ := literalFrom_append_letter scan tail
    rw [goesOn]
    simp [scan, closing.skipBlanks]

private theorem bare_continues (unmarked : mark? (skipBlanks text) = none)
    (notOpening : peek? (skipBlanks text) ≠ some '(')
    (notQuote : peek? (skipBlanks text) ≠ some '"')
    (atEnd : (exprWith options inner text).rest = []) :
    Continues (exprWith options inner) text (exprWith options inner text) := by
  have goesOn : ∀ more, exprWith options inner (text ++ letter :: more) = _ :=
    exprWith_append_letter reads unmarked notOpening
  have atom_eq : atom? options (skipBlanks text) = bare? (skipBlanks text) := if_neg notQuote
  have atom_eq' : ∀ more, atom? options (skipBlanks text ++ letter :: more) =
      bare? (skipBlanks text ++ letter :: more) :=
    fun more => if_neg (peek?_append_cons_ne notQuote (by decide) more)
  have absent : ∀ rest, atom? options (skipBlanks text) = .ok none rest →
      skipBlanks rest = rest := by
    intro rest none_eq
    rw [atom?_eq_none_iff (skipBlanks_skipBlanks text) unmarked notOpening] at none_eq
    exact none_eq.ends.skipBlanks
  rw [(ExprStep.atom unmarked notOpening).exprWith_eq reads] at atEnd ⊢
  simp only [atom_eq, atom_eq'] at atEnd goesOn absent ⊢
  by_cases stops : (bareFrom [] (skipBlanks text)).2 = []
  · have taken : ∀ tail, Closing tail →
        ∃ d, exprWith options inner (text ++ letter :: tail) = .ok (some d) tail := by
      intro tail closing
      obtain ⟨atom, bare_eq⟩ := bare?_append_letter stops closing
      exact ⟨.atom atom, by simp [goesOn, bare_eq, closing.skipBlanks]⟩
    by_cases nil : (bareFrom [] (skipBlanks text)).1 = []
    · rw [bare?_of_nil (Prod.ext nil stops)]
      exact .none taken
    · rw [bare?_of_ne_nil nil, stops]
      exact .some fun tail closing => (taken tail closing).imp fun _ => .inl
  · by_cases nil : (bareFrom [] (skipBlanks text)).1 = []
    · have none_eq := bare?_of_nil (Prod.ext nil rfl)
      rw [none_eq] at atEnd
      exact absurd ((absent _ none_eq).symm.trans atEnd) stops
    · have some_eq := bare?_of_ne_nil nil
      have left := bare?_looksOneAhead.append bare?_forward (by rwa [some_eq])
      rw [some_eq] at atEnd left ⊢
      have atEnd : skipBlanks (bareFrom [] (skipBlanks text)).2 = [] := atEnd
      simp only [Outcome.map_ok, Option.map_some, Outcome.skipBlanks_ok, atEnd]
      refine .some fun tail _ =>
        ⟨.atom (String.ofList (bareFrom [] (skipBlanks text)).1), .inr ?_⟩
      rw [goesOn, left]
      simp [Outcome.leaving, skipBlanks_append_letter, atEnd]

end Front

section Levels

variable {options : ReadOptions} {inner : Production (Option Datum)} {text : List TextUnit}

private theorem marked_continues (reads : ReadsExpressions inner) (completable : Completable inner)
    {mark : QuoteMark} {rest : List TextUnit} (front : mark? (skipBlanks text) = some (mark, rest))
    (atEnd : (inner rest).rest = []) :
    Continues (exprWith options (some inner)) text ((markedWith inner mark rest).map some) := by
  have goesOn : ∀ more, exprWith options (some inner) (text ++ letter :: more) =
      (markedWith inner mark (rest ++ letter :: more)).map some := by
    intro more
    refine (ExprStep.marked ?_).exprWith_eq (by simpa using reads)
    rw [skipBlanks_append_letter]
    exact mark?_append front (by simp [letter])
  have marked : ∀ {more d left}, inner (rest ++ letter :: more) = .ok (some d) left →
      exprWith options (some inner) (text ++ letter :: more) =
        .ok (some (.marked mark d)) left := by
    intro more d left inner_eq
    rw [goesOn, markedWith, inner_eq]
    rfl
  have continues := completable rest atEnd
  unfold markedWith
  generalize inner rest = o at continues
  cases continues with
  | none ends =>
    refine .error (.inr (.inr ⟨mark, rfl⟩)) (.of_letter fun tail closing => ?_)
    exact (ends tail closing).imp' _ fun _ => marked
  | some ends =>
    refine .some fun tail closing => ?_
    exact (ends tail closing).imp' _ fun _ => Or.imp marked marked
  | error missing ends =>
    exact .error missing (ends.imp fun more tail _ read => read.imp' _ fun _ => marked)

private theorem ItemRun.single (reads : ReadsExpressions inner) {text tail : List TextUnit}
    {d : Datum} (closing : Closing tail) (first : inner text = .ok (some d) tail) :
    ItemRun inner text (.ok [d] tail) := by
  refine .item first (.stop ((reads.absent _ _).2 ?_))
  rw [closing.skipBlanks]
  exact closing.absent

/-- An expression that ends the text may take the letter, or leave it to one of its own. -/
theorem extends_last_item (reads : ReadsExpressions inner) (completable : Completable inner)
    {d : Datum} (last : inner text = .ok (some d) []) :
    Extends text fun text tail => ∃ items, ItemRun inner text (.ok items tail) := by
  have continues := completable text (by rw [last]; rfl)
  have next := completable [] (by rw [reads.at_end]; rfl)
  rw [last] at continues
  rw [reads.at_end] at next
  cases continues with
  | some ends =>
    cases next with
    | none alone =>
      refine .of_letter fun tail closing => ?_
      obtain ⟨d', taken | left⟩ := ends tail closing
      · exact ⟨[d'], .single reads closing taken⟩
      · obtain ⟨d'', taken⟩ := alone tail closing
        exact ⟨[d', d''], .item left (.single reads closing taken)⟩

private theorem ItemRun.extends (reads : ReadsExpressions inner) (looks : LooksOneAhead inner)
    (completable : Completable inner) {o : Outcome (List Datum)} (run : ItemRun inner text o)
    (atEnd : o.rest = []) :
    (∀ fault, o = .error fault [] → fault.IsMissing) ∧
      Extends text fun text tail => ∃ items, ItemRun inner text (.ok items tail) := by
  induction run with
  | @stop text rest absent =>
    obtain rfl : rest = [] := atEnd
    have continues := completable text (by rw [absent]; rfl)
    rw [absent] at continues
    cases continues with
    | none ends =>
      -- No item has begun, and the letter begins one.
      refine ⟨by simp, .of_letter fun tail closing => ?_⟩
      obtain ⟨d, first⟩ := ends tail closing
      exact ⟨[d], .single reads closing first⟩
  | @fail text rest fault fails =>
    obtain rfl : rest = [] := atEnd
    have continues := completable text (by rw [fails]; rfl)
    rw [fails] at continues
    cases continues with
    | error missing ends =>
      refine ⟨by simp [missing], ends.imp fun more tail closing ⟨d, first⟩ => ?_⟩
      exact ⟨[d], .single reads closing first⟩
  | @item text mid d o first others ih =>
    rw [Outcome.rest_map] at atEnd
    obtain ⟨missing, ends⟩ := ih atEnd
    refine ⟨fun fault failed => missing fault (Outcome.map_eq_error_iff.1 failed), ?_⟩
    by_cases nil : mid = []
    · subst nil
      -- The letter may become part of the item, or begin one behind it.
      exact extends_last_item reads completable first
    · refine ends.imp fun more tail closing ⟨items, run⟩ => ⟨d :: items, ?_⟩
      have left := looks.append reads.forward (by rwa [first]) (letter :: more)
      rw [first] at left
      exact .item left run

private theorem list_continues (reads : ReadsExpressions inner) (looks : LooksOneAhead inner)
    (completable : Completable inner) {content : List TextUnit} {o : Outcome (List Datum)}
    (front : skipBlanks text = .char '(' :: content) (items : ItemRun inner content o)
    (atEnd : (((closeList o).map some).skipBlanks).rest = []) :
    Continues (exprWith options (some inner)) text ((closeList o).map some).skipBlanks := by
  have goesOn : ∀ {more o}, ItemRun inner (content ++ letter :: more) o →
      exprWith options (some inner) (text ++ letter :: more) =
        ((closeList o).map some).skipBlanks := by
    intro more o run
    refine (ExprStep.list ?_ run).exprWith_eq (by simpa using reads)
    rw [skipBlanks_append_letter, front, List.cons_append]
  have closed : Extends content (fun text tail => ∃ items, ItemRun inner text (.ok items tail)) →
      Extends text fun text tail =>
        ∃ d, exprWith options (some inner) text = .ok (some d) tail := by
    rintro ⟨more, noReturn, ends⟩
    refine ⟨more ++ [')'], by simpa using noReturn, fun tail closing => ?_⟩
    obtain ⟨items, run⟩ := ends (.char ')' :: tail) (.inr ⟨tail, rfl⟩)
    refine ⟨.list items, ?_⟩
    rw [List.map_append, List.append_assoc]
    exact (goesOn run).trans (by simp [closeList, closing.skipBlanks])
  cases o with
  | error fault rest =>
    obtain rfl : rest = [] := atEnd
    obtain ⟨missing, ends⟩ := items.extends reads looks completable rfl
    exact .error (missing fault rfl) (closed ends)
  | ok items' rest =>
    rcases items.ends reads with rfl | ⟨behind, rfl⟩
    · exact .error (.inr (.inl rfl)) (closed (items.extends reads looks completable rfl).2)
    · -- The list is closed already, and the letter is left to an expression behind it.
      have atEnd : skipBlanks behind = [] := atEnd
      have list_eq : ((closeList (.ok items' (.char ')' :: behind))).map some).skipBlanks =
          .ok (some (.list items')) [] := by
        simp [closeList, atEnd]
      rw [list_eq]
      refine .some fun tail _ => ⟨.list items', .inr ?_⟩
      have run := items.append reads looks (by simp) (letter :: tail)
      rw [goesOn run]
      simp [Outcome.leaving, closeList, skipBlanks_append_letter, atEnd]

private theorem exprWith_completable {inner : Option (Production (Option Datum))}
    (reads : ∀ production ∈ inner, ReadsExpressions production)
    (looks : ∀ production ∈ inner, LooksOneAhead production)
    (completable : ∀ production ∈ inner, Completable production) :
    Completable (exprWith options inner) := by
  intro text atEnd
  have step := (exprWith_eq_iff reads).1 (rfl : exprWith options inner text = _)
  generalize outcome : exprWith options inner text = o at step
  rw [outcome] at atEnd
  cases step with
  | limit front level => cases atEnd
  | marked front =>
    rw [Outcome.rest_map, rest_markedWith] at atEnd
    exact marked_continues (reads _ rfl) (completable _ rfl) front atEnd
  | list front items =>
    exact list_continues (reads _ rfl) (looks _ rfl) (completable _ rfl) front items atEnd
  | atom unmarked notOpening =>
    rw [← outcome] at atEnd ⊢
    by_cases quote : peek? (skipBlanks text) = some '"'
    · obtain ⟨body, front⟩ := eq_cons_of_peek? quote (by decide)
      exact literal_continues reads front atEnd
    · exact bare_continues reads unmarked notOpening quote atEnd

private theorem exprAt_completable (options : ReadOptions) (depth : Nat) :
    Completable (exprAt options depth) :=
  exprAt_induction (fun below => exprWith_completable below.reads
    (below.all (exprAt_looksOneAhead options)) below.known) depth

end Levels

section Document

variable {options : ReadOptions}

private theorem document_completable {text : List TextUnit} {fault : Fault}
    (h : document options text = .error fault []) :
    fault.IsMissing ∧ ∃ more : List Char, '\r' ∉ more ∧
      ∃ d, document options (text ++ letter :: more.map .char) = .ok d [] := by
  obtain expr_eq | ⟨_, _, _, _, _, nil_eq⟩ := document_eq_error_iff.1 h
  · have continues := exprAt_completable options options.maxDepth text (by rw [expr_eq]; rfl)
    rw [expr_eq] at continues
    cases continues with
    | error missing ends =>
      obtain ⟨more, noReturn, ends⟩ := ends
      obtain ⟨d, read⟩ := ends [] (.inl rfl)
      rw [List.append_nil] at read
      exact ⟨missing, more, noReturn, d, document_eq_ok_iff.2 ⟨_, read, rfl, rfl⟩⟩
  · cases nil_eq

/-- Whether some text behind this one makes it one that is read. -/
def CanBeCompleted (options : ReadOptions) (text : String) : Prop :=
  ∃ more d, read options (text ++ more) = .ok d

/-- Whether `e` is that something is missing at the end of a text that can be completed. -/
def FailsAtEnd (options : ReadOptions) (text : String) (e : ReadError) : Prop :=
  e.fault.IsMissing ∧ e.position = .behind (split text.toList) ∧ CanBeCompleted options text

/-- Whether `e` is at a character of the text with which no text is read and up to which the text
can be completed. -/
def FailsInside (options : ReadOptions) (text : String) (e : ReadError) : Prop :=
  ∃ before c after, text = String.push before c ++ after ∧
    e.position = .behind (split before.toList) ∧
    (∀ after', read options (before.push c ++ after') = .error e) ∧ CanBeCompleted options before

private theorem canBeCompleted_of_rest_eq_nil {text : String}
    (h : (document options (split text.toList)).rest = []) : CanBeCompleted options text := by
  cases document_eq : document options (split text.toList) with
  | ok d rest =>
    obtain rfl : rest = [] := by rwa [document_eq] at h
    exact ⟨"", d, by rwa [String.append_empty, read_eq_ok_iff_document]⟩
  | error fault rest =>
    obtain rfl : rest = [] := by rwa [document_eq] at h
    obtain ⟨-, more, noReturn, d, complete⟩ := document_completable document_eq
    refine ⟨String.ofList ('a' :: more), d, read_eq_ok_iff_document.2 ?_⟩
    have noReturn : '\r' ∉ 'a' :: more := by simpa using noReturn
    rw [String.toList_append, String.toList_ofList, split_append _ (by simp), split_eq_map noReturn]
    exact complete

private theorem rest_document_front {front after : List TextUnit} {u : TextUnit}
    (stops : (document options (front ++ u :: after)).rest = u :: after) :
    (document options front).rest = [] := by
  -- What the front alone leaves, it also leaves in front of anything else.
  by_contra ne_nil
  have left :=
    (document_looksOneAhead options).append (document_forward options) ne_nil (u :: after)
  have rest_eq : (document options (front ++ u :: after)).rest =
      (document options front).rest ++ u :: after := by
    rw [left]
    cases document options front <;> rfl
  rw [stops] at rest_eq
  exact ne_nil (by simpa using rest_eq)

private theorem not_failsInside_of_failsAtEnd {text : String} {e : ReadError}
    (h : FailsAtEnd options text e) : ¬FailsInside options text e := by
  rintro ⟨before, c, after, rfl, -, fails, -⟩
  obtain ⟨-, -, more, d, complete⟩ := h
  rw [String.append_assoc, fails] at complete
  cases complete

private theorem failsInside_of_rest {text : String} {fault : Fault} {before after : List TextUnit}
    {u : TextUnit} (units_eq : split text.toList = before ++ u :: after)
    (h : document options (split text.toList) = .error fault (u :: after)) :
    FailsInside options text ⟨fault, .behind before⟩ := by
  have settled := (exprAt_readsExpressions options options.maxDepth).settled (split text.toList)
  rw [← rest_document, h, Outcome.rest_error] at settled
  have notBlank := isBlank_of_skipBlanks settled
  obtain ⟨c, rfl⟩ : ∃ c, u = .char c :=
    ⟨u.first, eq_char_of_first rfl fun first => by rw [first] at notBlank; cases notBlank⟩
  -- A reader stops in front of no blank, and so not between the characters of a line end.
  have notReturn : c ≠ '\r' := by rintro rfl; cases notBlank
  have notFeed : c ≠ '\n' := by rintro rfl; cases notBlank
  have paired : Paired before := by
    have paired := paired_split text.toList
    rw [units_eq] at paired
    exact paired.left_of_append
  have split_before : split (String.ofList (join before)).toList = before := by
    rw [String.toList_ofList, split_join paired]
  have split_on : ∀ after', split ((String.ofList (join before)).push c ++ after').toList =
      before ++ .char c :: split after'.toList := by
    intro after'
    rw [String.toList_append, String.toList_push, String.toList_ofList, List.append_assoc,
      List.singleton_append, split_join_append paired (by simpa using notFeed),
      split_cons_of_ne notReturn]
  have stops : (document options (before ++ .char c :: after)).rest = .char c :: after := by
    rw [← units_eq, h]
    rfl
  refine ⟨String.ofList (join before), c, String.ofList (join after), ?_, ?_, fun after' => ?_, ?_⟩
  · rw [← String.toList_inj, ← join_split text.toList, units_eq]
    simp
  · rw [split_before]
  · have next : SameNext (.char c :: after) (.char c :: split after'.toList) := ⟨_, _, _, rfl, rfl⟩
    refine read_eq_error_iff.2 ⟨before, _, split_on after', ?_, rfl⟩
    rw [split_on, document_looksOneAhead options before _ _ next stops, ← units_eq, h]
    rfl
  · apply canBeCompleted_of_rest_eq_nil
    rw [split_before]
    exact rest_document_front stops

/-- Errors are reported where a text cannot be completed any more. Either something is missing at
the end, or the error is at a character up to which the text can be completed, and is the same
whatever is behind that character. -/
theorem error_at_end_or_inside {text : String} {e : ReadError} (h : read options text = .error e) :
    Xor (FailsAtEnd options text e) (FailsInside options text e) := by
  obtain ⟨before, rest, units_eq, document_eq, position_eq⟩ := read_eq_error_iff.1 h
  cases rest with
  | nil =>
    rw [List.append_nil] at units_eq
    have atEnd : FailsAtEnd options text e :=
      ⟨(document_completable document_eq).1, units_eq ▸ position_eq,
        canBeCompleted_of_rest_eq_nil (by rw [document_eq]; rfl)⟩
    exact .inl ⟨atEnd, not_failsInside_of_failsAtEnd atEnd⟩
  | cons u after =>
    have inside := failsInside_of_rest units_eq document_eq
    rw [← position_eq] at inside
    exact .inr ⟨inside, fun atEnd => not_failsInside_of_failsAtEnd atEnd inside⟩

theorem error_at_end_or_inside_nothingMarked :
    read ⟨" ", 2⟩ "(a ')" = .error ⟨.nothingMarked .quote (some ')'), ⟨0, 4⟩⟩ ∧
      Xor (FailsAtEnd ⟨" ", 2⟩ "(a ')" ⟨.nothingMarked .quote (some ')'), ⟨0, 4⟩⟩)
        (FailsInside ⟨" ", 2⟩ "(a ')" ⟨.nothingMarked .quote (some ')'), ⟨0, 4⟩⟩) :=
  ⟨rfl, error_at_end_or_inside rfl⟩

end Document

end SExpr

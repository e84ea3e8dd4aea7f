import SExpr.Proofs.Grammar.Scan

/-!
# Reading what the grammar spells

`Scans` is how a text is passed over lexeme by lexeme from its beginning.
-/

namespace SExpr

open TextUnit

def Lexeme.EndsBefore (l : Lexeme) (behind : List Char) : Prop :=
  match l with
  | .bare items _ => BareEnd items behind
  | .mark .unquote => behind.head? ≠ some '@'
  | _ => True

/-- The lexemes at the front of a text, each with any blanks in front of it. A lone backslash behind
a bare atom at the end of the text is passed over. -/
inductive Scans : List Lexeme → (text rest : List Char) → Prop where
  | done {gap : List Char} (rest : List Char) (blank : ∀ c ∈ gap, isBlank c) :
      Scans [] (gap ++ rest) rest
  | lexeme {gap after rest : List Char} {l : Lexeme} {lexemes : List Lexeme}
      (blank : ∀ c ∈ gap, isBlank c) (ends : l.EndsBefore after)
      (others : Scans lexemes after rest) : Scans (l :: lexemes) (gap ++ (l.spelling ++ after)) rest
  | cut {gap : List Char} (items : List BareItem) (nonempty : items ≠ [])
      (blank : ∀ c ∈ gap, isBlank c) :
      Scans [.bare items nonempty] (gap ++ (items.flatMap BareItem.chars ++ ['\\'])) []

theorem Lexeme.spelling_ne_nil (l : Lexeme) : l.spelling ≠ [] := by
  cases l with
  | opening => simp [spelling]
  | closing => simp [spelling]
  | mark mark => cases mark <;> decide
  | literal items => simp [spelling]
  | bare items nonempty =>
    cases items with
    | nil => exact absurd rfl nonempty
    | cons item items => cases item <;> simp [spelling, BareItem.chars]

namespace Scans

theorem refl (text : List Char) : Scans [] text text :=
  @done [] text (by simp)

theorem here {l : Lexeme} {lexemes : List Lexeme} {after rest : List Char}
    (ends : l.EndsBefore after) (others : Scans lexemes after rest) :
    Scans (l :: lexemes) (l.spelling ++ after) rest :=
  @lexeme [] after rest l lexemes (by simp) ends others

theorem cutHere (items : List BareItem) (nonempty : items ≠ []) :
    Scans [.bare items nonempty] (items.flatMap BareItem.chars ++ ['\\']) [] :=
  @cut [] items nonempty (by simp)

theorem blanks {gap text rest : List Char} {lexemes : List Lexeme} (blank : ∀ c ∈ gap, isBlank c)
    (h : Scans lexemes text rest) : Scans lexemes (gap ++ text) rest := by
  have together : ∀ {more : List Char}, (∀ c ∈ more, isBlank c) → ∀ c ∈ gap ++ more, isBlank c :=
    fun blank_more => List.forall_mem_append.2 ⟨blank, blank_more⟩
  cases h with
  | done rest blank_more => exact List.append_assoc gap _ _ ▸ done rest (together blank_more)
  | lexeme blank_more ends others =>
    exact List.append_assoc gap _ _ ▸ lexeme (together blank_more) ends others
  | cut items nonempty blank_more =>
    exact List.append_assoc gap _ _ ▸ cut items nonempty (together blank_more)

private theorem of_nil {lexemes : List Lexeme} {text rest : List Char} (h : Scans lexemes text rest)
    (empty : text = []) : lexemes = [] ∧ rest = [] := by
  cases h with
  | done rest blank => exact ⟨rfl, (List.append_eq_nil_iff.1 empty).2⟩
  | lexeme blank ends others =>
    have spelling_nil := (List.append_eq_nil_iff.1 (List.append_eq_nil_iff.1 empty).2).1
    exact absurd spelling_nil (Lexeme.spelling_ne_nil _)
  | cut items nonempty blank => simp at empty

theorem append {first second : List Lexeme} {text middle rest : List Char}
    (h : Scans first text middle) (h' : Scans second middle rest) :
    Scans (first ++ second) text rest := by
  induction h with
  | done rest blank => exact h'.blanks blank
  | lexeme blank ends others ih => exact lexeme blank ends (ih h')
  | cut items nonempty blank =>
    obtain ⟨rfl, rfl⟩ := h'.of_nil rfl
    exact cut items nonempty blank

private theorem of_append {first second : List Lexeme} {text rest : List Char}
    (h : Scans (first ++ second) text rest) :
    ∃ middle, Scans first text middle ∧ Scans second middle rest := by
  induction first generalizing text with
  | nil => exact ⟨text, refl text, h⟩
  | cons l first ih =>
    rw [List.cons_append] at h
    generalize lexemes_eq : l :: (first ++ second) = lexemes at h
    cases h with
    | done => cases lexemes_eq
    | lexeme blank ends others =>
      obtain ⟨rfl, rfl⟩ := List.cons.inj lexemes_eq
      obtain ⟨middle, h, h'⟩ := ih others
      exact ⟨middle, lexeme blank ends h, h'⟩
    | cut items nonempty blank =>
      obtain ⟨rfl, nil_eq⟩ := List.cons.inj lexemes_eq
      obtain ⟨rfl, rfl⟩ := List.append_eq_nil_iff.1 nil_eq
      exact ⟨[], cut items nonempty blank, refl []⟩

end Scans

section Soundness

variable {options : ReadOptions}

/-- What `inner` reads is an expression of the grammar of at most `depth` levels. -/
def Sound (options : ReadOptions) (depth : Nat) (inner : Production (Option Datum)) : Prop :=
  ∀ text d rest, inner (split text) = .ok (some d) rest →
    ∃ lexemes behind, Scans lexemes text behind ∧ Derives options lexemes d ∧ d.depth ≤ depth ∧
      rest = skipBlanks (split behind)

private theorem literal_sound {text : List Char} {atom : String} {rest : List TextUnit}
    (quote : peek? (split text) = some '"') (h : literal options (split text) = .ok atom rest) :
    ∃ l behind, Scans [l] text behind ∧ Derives options [l] (.atom atom) ∧ rest = split behind := by
  cases text with
  | nil => cases quote
  | cons c body =>
    obtain ⟨u, more, split_eq, rfl⟩ := exists_split_cons c body
    have first : u.first = '"' := by simpa [peek?, split_eq] using quote
    rw [first, split_cons_of_ne (by decide)] at h
    obtain ⟨chars, scan, rfl⟩ := Outcome.map_eq_ok_iff.1 h
    obtain ⟨items, behind, rfl, rfl, rfl⟩ := exists_spelling_of_literalFrom scan
    rw [List.reverse_nil, List.nil_append, literalText_map_meaning]
    refine ⟨.literal items, behind, ?_, .literal items, rfl⟩
    have scans := Scans.here (l := .literal items) trivial (.refl behind)
    simpa [Lexeme.spelling, first] using scans

private theorem bare_sound {text : List Char} {atom : String} {rest : List TextUnit}
    (h : bare? (split text) = .ok (some atom) rest) :
    ∃ l behind, Scans [l] text behind ∧ Derives options [l] (.atom atom) ∧ rest = split behind := by
  have ne_nil : (bareFrom [] (split text)).1 ≠ [] := by
    intro nil
    rw [bare?_of_nil (Prod.ext nil rfl)] at h
    cases h
  rw [bare?_of_ne_nil ne_nil] at h
  cases h
  obtain ⟨items, behind, rfl, chars_eq, stop⟩ :=
    @exists_spelling_of_bareFrom [] text _ _ rfl
  have nonempty : items ≠ [] := by
    rintro rfl
    exact ne_nil (by simpa using chars_eq)
  rw [chars_eq]
  refine ⟨.bare items nonempty, ?_⟩
  rcases stop with ⟨ends, same⟩ | ⟨rfl, same⟩
  · exact ⟨behind, .here ends (.refl behind), .bare items nonempty, same⟩
  · exact ⟨[], .cutHere items nonempty, .bare items nonempty, same⟩

private theorem atom?_sound {text : List Char} {atom : String} {rest : List TextUnit}
    (h : atom? options (split text) = .ok (some atom) rest) :
    ∃ l behind, Scans [l] text behind ∧ Derives options [l] (.atom atom) ∧ rest = split behind := by
  unfold atom? at h
  split at h
  · rename_i quote
    obtain ⟨_, literal, some_eq⟩ := Outcome.map_eq_ok_iff.1 h
    cases some_eq
    exact literal_sound quote literal
  · exact bare_sound h

private theorem scans_mark {text : List Char} {mark : QuoteMark} {rest : List TextUnit}
    (h : mark? (skipBlanks (split text)) = some (mark, rest)) :
    ∃ behind, Scans [.mark mark] text behind ∧ rest = split behind := by
  obtain ⟨gap, body, blank, rfl, body_eq⟩ := exists_skipBlanks_split text
  rw [body_eq] at h
  obtain ⟨split_eq, alone⟩ := mark?_eq_some_iff.1 h
  obtain ⟨behind, rfl, rfl⟩ := split_eq_append split_eq
  refine ⟨behind, ?_, rfl⟩
  rw [QuoteMark.units, join_map_char]
  refine .lexeme (l := .mark mark) blank ?_ (.refl behind)
  cases mark with
  | unquote => exact fun head => alone rfl (head?_split_of_ne (by decide) head)
  | quote => trivial
  | quasiquote => trivial
  | unquoteSplicing => trivial

private theorem scans_opening {text : List Char} {content : List TextUnit}
    (h : skipBlanks (split text) = .char '(' :: content) :
    ∃ behind, Scans [.opening] text behind ∧ content = split behind := by
  obtain ⟨gap, body, blank, rfl, body_eq⟩ := exists_skipBlanks_split text
  rw [body_eq] at h
  obtain ⟨behind, rfl, rfl⟩ := split_eq_cons h
  exact ⟨behind, .lexeme (l := .opening) blank trivial (.refl behind), rfl⟩

variable {depth : Nat} {inner : Production (Option Datum)}

private theorem ItemRun.sound (reads : ReadsExpressions inner) (sound : Sound options depth inner)
    {text : List Char} {items : List Datum} {rest : List TextUnit}
    (run : ItemRun inner (split text) (.ok items (.char ')' :: rest))) :
    ∃ (parts : List (List Lexeme × Datum)) (behind : List Char),
      Scans (parts.flatMap Prod.fst) text (')' :: behind) ∧ rest = split behind ∧
        (∀ part ∈ parts, Derives options part.1 part.2) ∧ (∀ d ∈ items, d.depth ≤ depth) ∧
          items = parts.map Prod.snd := by
  generalize units_eq : split text = units at run
  generalize out_eq : Outcome.ok items (.char ')' :: rest) = o at run
  induction run generalizing text items with
  | @stop units rest' absent =>
    cases out_eq
    obtain ⟨gap, body, blank, rfl, body_eq⟩ := exists_skipBlanks_split text
    have closing := (reads.absent _ _).1 absent
    rw [← units_eq, body_eq] at closing
    generalize front_eq : split body = front at closing
    cases closing
    obtain ⟨behind, rfl, rfl⟩ := split_eq_cons front_eq
    exact ⟨[], behind, .done _ blank, rfl, by simp, by simp, rfl⟩
  | fail fails => cases out_eq
  | @item units mid d o first others ih =>
    obtain ⟨items, rfl, rfl⟩ := Outcome.map_eq_ok_iff.1 out_eq.symm
    obtain ⟨lexemes, middle, scans, derives, shallow, rfl⟩ := sound text d mid (units_eq ▸ first)
    obtain ⟨gap, body, blank, rfl, body_eq⟩ := exists_skipBlanks_split middle
    obtain ⟨parts, behind, scans', rfl, derives', shallow', rfl⟩ := ih body_eq.symm rfl
    refine ⟨(lexemes, d) :: parts, behind, scans.append (scans'.blanks blank), rfl, ?_, ?_, rfl⟩
    · exact List.forall_mem_cons.2 ⟨derives, derives'⟩
    · exact List.forall_mem_cons.2 ⟨shallow, shallow'⟩

private theorem exprWith_sound {inner : Option (Production (Option Datum))}
    (below : LevelBelow options (Sound options) depth inner) :
    Sound options depth (exprWith options inner) := by
  intro text d rest h
  have step := (exprWith_eq_iff below.reads).1 h
  generalize out_eq : Outcome.ok (some d) rest = o at step
  generalize units_eq : split text = units at step
  cases step with
  | limit front level => cases out_eq
  | @marked inner units content mark front =>
    subst units_eq
    obtain - | sound_inner := below
    obtain ⟨_, marked, some_eq⟩ := Outcome.map_eq_ok_iff.1 out_eq.symm
    obtain ⟨d, inner_eq, rfl⟩ := markedWith_eq_ok_iff.1 marked
    cases some_eq
    obtain ⟨body, scans_sign, rfl⟩ := scans_mark front
    obtain ⟨lexemes, behind, scans, derives, shallow, rfl⟩ := sound_inner body d rest inner_eq
    exact ⟨_, behind, scans_sign.append scans, .marked mark derives, by simpa using shallow, rfl⟩
  | @list inner units content o front run =>
    subst units_eq
    obtain - | sound_inner := below
    obtain ⟨more, closed, rfl⟩ := Outcome.skipBlanks_eq_ok_iff.1 out_eq.symm
    obtain ⟨_, closed, some_eq⟩ := Outcome.map_eq_ok_iff.1 closed
    obtain ⟨items, rfl, rfl⟩ := closeList_ok closed
    cases some_eq
    obtain ⟨body, scans_opening, rfl⟩ := scans_opening front
    obtain ⟨parts, behind, scans, rfl, derives, shallow, rfl⟩ :=
      run.sound (exprAt_readsExpressions options _) sound_inner
    have scans_closing : Scans [.closing] (')' :: behind) behind :=
      .here (l := .closing) trivial (.refl behind)
    exact ⟨_, behind, scans_opening.append (scans.append scans_closing), .list parts derives,
      Datum.depth_list_le_iff.2 shallow, rfl⟩
  | @atom inner units unmarked notOpening =>
    subst units_eq
    obtain ⟨more, mapped, rfl⟩ := Outcome.skipBlanks_eq_ok_iff.1 out_eq.symm
    obtain ⟨text?, atom_eq, some_eq⟩ := Outcome.map_eq_ok_iff.1 mapped
    obtain ⟨chars, rfl, rfl⟩ := Option.map_eq_some_iff.1 some_eq
    obtain ⟨gap, body, blank, rfl, body_eq⟩ := exists_skipBlanks_split text
    rw [body_eq] at atom_eq
    obtain ⟨l, behind, scans, derives, rfl⟩ := atom?_sound atom_eq
    exact ⟨[l], behind, scans.blanks blank, derives, by simp, rfl⟩

private theorem exprAt_sound (options : ReadOptions) (depth : Nat) :
    Sound options depth (exprAt options depth) :=
  exprAt_induction exprWith_sound depth

end Soundness

section Completeness

theorem Lexeme.head?_spelling (l : Lexeme) (after : List Char) :
    ∀ c ∈ (l.spelling ++ after).head?, isBlank c = false := by
  cases l with
  | opening => simp [spelling, show isBlank '(' = false by decide]
  | closing => simp [spelling, show isBlank ')' = false by decide]
  | mark mark => cases mark <;> simp [spelling, QuoteMark.sign] <;> decide
  | literal items => simp [spelling, show isBlank '"' = false by decide]
  | bare items nonempty =>
    obtain ⟨c, more, cons_eq, plain | rfl⟩ := exists_cons_bareItems items nonempty after
    · simpa [spelling, cons_eq] using Bool.eq_false_iff.2 fun blank =>
        absurd (stopsAtom_of_isBlank blank) (by simp [plain])
    · simp [spelling, cons_eq, show isBlank '\\' = false by decide]

private theorem skipBlanks_split_lexeme {gap : List Char} (blank : ∀ c ∈ gap, isBlank c)
    (l : Lexeme) (after : List Char) :
    skipBlanks (split (gap ++ (l.spelling ++ after))) = split (l.spelling ++ after) := by
  rw [skipBlanks_split_append blank, skipBlanks_split_of_head (l.head?_spelling after)]

private theorem Scans.skipBlanks_eq {text rest : List Char} (h : Scans [] text rest) :
    skipBlanks (split text) = skipBlanks (split rest) := by
  cases h with
  | done rest blank => exact skipBlanks_split_append blank rest

variable {options : ReadOptions}

def Complete (options : ReadOptions) (depth : Nat) (inner : Production (Option Datum)) : Prop :=
  ∀ lexemes d text behind, Derives options lexemes d → d.depth ≤ depth →
    Scans lexemes text behind → inner (split text) = .ok (some d) (skipBlanks (split behind))

theorem atom?_literal (items : List LiteralItem) (after : List Char) :
    atom? options (split ((Lexeme.literal items).spelling ++ after)) =
      .ok (some (if items = [] then options.emptyLiteral
        else String.ofList (items.map LiteralItem.meaning))) (split after) := by
  have front : (Lexeme.literal items).spelling ++ after =
      '"' :: (items.flatMap LiteralItem.chars ++ '"' :: after) := by
    simp [Lexeme.spelling]
  rw [front, split_cons_of_ne (by decide)]
  simp [atom?, peek?, literal, literalFrom_spelling, literalText_map_meaning]

theorem atom?_bare {items : List BareItem} (nonempty : items ≠ []) {after : List Char}
    {rest : List TextUnit}
    (scan : bareFrom [] (split (items.flatMap BareItem.chars ++ after)) =
      (items.flatMap BareItem.meaning, rest)) :
    atom? options (split (items.flatMap BareItem.chars ++ after)) =
      .ok (some (String.ofList (items.flatMap BareItem.meaning))) rest := by
  obtain ⟨c, more, cons_eq, begins⟩ := exists_cons_bareItems items nonempty after
  obtain ⟨u, more', split_eq, rfl⟩ := exists_split_cons c more
  have notQuote : u.first ≠ '"' := by
    intro quote
    rw [quote] at begins
    exact absurd begins (by decide)
  have ne_nil : (bareFrom [] (split (items.flatMap BareItem.chars ++ after))).1 ≠ [] := by
    rw [scan]
    exact meaning_ne_nil nonempty
  rw [atom?, if_neg (by simpa [cons_eq, split_eq, peek?] using notQuote), bare?_of_ne_nil ne_nil,
    scan]

theorem mark?_spelling {mark : QuoteMark} {after : List Char}
    (ends : (Lexeme.mark mark).EndsBefore after) :
    mark? (split ((Lexeme.mark mark).spelling ++ after)) = some (mark, split after) := by
  refine mark?_eq_some_iff.2 ⟨?_, ?_⟩
  · cases mark <;> simp [Lexeme.spelling, QuoteMark.sign, QuoteMark.units, split_cons_of_ne]
  · rintro rfl head
    apply ends
    cases after with
    | nil => cases head
    | cons c after =>
      obtain ⟨u, rest, split_eq, rfl⟩ := exists_split_cons c after
      rw [split_eq] at head
      obtain rfl : u = .char '@' := by simpa using head
      rfl

theorem not_level_split {c : Char} (h : beginsLevel c = false) (text : List Char) :
    mark? (split (c :: text)) = none ∧ peek? (split (c :: text)) ≠ some '(' := by
  obtain ⟨u, rest, split_eq, rfl⟩ := exists_split_cons c text
  rw [beginsLevel, Bool.or_eq_false_iff] at h
  constructor
  · rw [split_eq, mark?_cons_eq_none_iff]
    simpa using h.2
  · simpa [split_eq, peek?] using h.1

theorem beginsLevel_of_plain {c : Char} (h : stopsAtom c = false) : beginsLevel c = false := by
  simp only [stopsAtom, Bool.or_eq_false_iff] at h
  simp [beginsLevel, h]

variable {depth : Nat} {inner : Production (Option Datum)}

private theorem ItemRun.complete (reads : ReadsExpressions inner)
    (complete : Complete options depth inner)
    {parts : List (List Lexeme × Datum)} (items : ∀ part ∈ parts, Derives options part.1 part.2)
    (shallow : ∀ part ∈ parts, part.2.depth ≤ depth) {text behind : List Char}
    (scans : Scans (parts.flatMap Prod.fst) text (')' :: behind)) :
    ItemRun inner (split text) (.ok (parts.map Prod.snd) (.char ')' :: split behind)) := by
  induction parts generalizing text with
  | nil =>
    refine .stop ((reads.absent _ _).2 ?_)
    rw [scans.skipBlanks_eq, split_cons_of_ne (by decide), skipBlanks_cons_of_not_blank (by decide)]
    exact .closing _
  | cons part parts ih =>
    obtain ⟨derives, items⟩ := List.forall_mem_cons.1 items
    obtain ⟨shallow_first, shallow⟩ := List.forall_mem_cons.1 shallow
    rw [List.flatMap_cons] at scans
    obtain ⟨middle, scans_first, scans⟩ := scans.of_append
    have first := complete part.1 part.2 text middle derives shallow_first scans_first
    exact .item first (ItemRun.skipBlanks reads (ih items shallow scans))

private theorem exprWith_of_scans_list (reads : ReadsExpressions inner)
    (complete : Complete options depth inner) {parts : List (List Lexeme × Datum)}
    (items : ∀ part ∈ parts, Derives options part.1 part.2)
    (shallow : ∀ part ∈ parts, part.2.depth ≤ depth) {text behind : List Char}
    (scans : Scans (.opening :: parts.flatMap Prod.fst ++ [.closing]) text behind) :
    exprWith options (some inner) (split text) =
      .ok (some (.list (parts.map Prod.snd))) (skipBlanks (split behind)) := by
  rw [List.cons_append] at scans
  cases scans with
  | @lexeme gap after _ _ _ blank ends others =>
    obtain ⟨middle, scans_items, scans_closing⟩ := others.of_append
    cases scans_closing with
    | @lexeme gap' after' _ _ _ blank' _ others' =>
      have front : skipBlanks (split (gap ++ (Lexeme.opening.spelling ++ after))) =
          .char '(' :: split after := by
        rw [skipBlanks_split_lexeme blank]
        exact split_cons_of_ne (by decide) after
      have run := ItemRun.complete reads complete items shallow
        (by simpa using scans_items.append (.done (')' :: after') blank'))
      rw [(ExprStep.list front run).exprWith_eq (by simpa using reads)]
      simp [closeList, others'.skipBlanks_eq]

section Step

variable {inner : Option (Production (Option Datum))}
  (reads : ∀ production ∈ inner, ReadsExpressions production)
include reads

private theorem exprWith_atom {gap : List Char} (blank : ∀ c ∈ gap, isBlank c) {l : Lexeme}
    {after : List Char} {atom : String} {rest : List TextUnit}
    (level : ∀ c ∈ (l.spelling ++ after).head?, beginsLevel c = false)
    (atom_eq : atom? options (split (l.spelling ++ after)) = .ok (some atom) rest) :
    exprWith options inner (split (gap ++ (l.spelling ++ after))) =
      .ok (some (.atom atom)) (skipBlanks rest) := by
  have front := skipBlanks_split_lexeme blank l after
  obtain ⟨c, more, cons_eq⟩ := List.exists_cons_of_ne_nil
    (List.append_ne_nil_of_left_ne_nil l.spelling_ne_nil after)
  obtain ⟨unmarked, notOpening⟩ := not_level_split (level c (by rw [cons_eq]; rfl)) more
  rw [← cons_eq, ← front] at unmarked notOpening
  rw [(ExprStep.atom unmarked notOpening).exprWith_eq reads, front, atom_eq]
  rfl

private theorem exprWith_bare {gap : List Char} (blank : ∀ c ∈ gap, isBlank c)
    {items : List BareItem} (nonempty : items ≠ []) {after : List Char} {rest : List TextUnit}
    (scan : bareFrom [] (split (items.flatMap BareItem.chars ++ after)) =
      (items.flatMap BareItem.meaning, rest)) :
    exprWith options inner (split (gap ++ (items.flatMap BareItem.chars ++ after))) =
      .ok (some (.atom (String.ofList (items.flatMap BareItem.meaning)))) (skipBlanks rest) := by
  refine exprWith_atom reads blank (l := .bare items nonempty) (fun c head => ?_)
    (atom?_bare nonempty scan)
  obtain ⟨c', more, cons_eq, begins⟩ := exists_cons_bareItems items nonempty after
  obtain rfl : c' = c := by simpa [Lexeme.spelling, cons_eq] using head
  rcases begins with plain | rfl
  · exact beginsLevel_of_plain plain
  · decide

private theorem exprWith_of_scans_bare {items : List BareItem} (nonempty : items ≠ [])
    {text behind : List Char} (scans : Scans [.bare items nonempty] text behind) :
    exprWith options inner (split text) =
      .ok (some (.atom (String.ofList (items.flatMap BareItem.meaning))))
        (skipBlanks (split behind)) := by
  cases scans with
  | @lexeme gap after _ _ _ blank ends others =>
    have scan := bareFrom_of_bareEnd ends
    exact (exprWith_bare reads blank nonempty scan).trans (by rw [others.skipBlanks_eq])
  | cut _ _ blank =>
    apply exprWith_bare reads blank nonempty
    rw [bareFrom_spelling items ['\\'] (by simp), List.append_nil]
    exact (bareFrom_backslash _).trans (by rw [List.reverse_reverse]; rfl)

end Step

private theorem exprWith_complete {inner : Option (Production (Option Datum))}
    (below : LevelBelow options (Complete options) depth inner) :
    Complete options depth (exprWith options inner) := by
  have reads := below.reads
  intro lexemes d text behind derives shallow scans
  cases derives with
  | literal items =>
    cases scans with
    | lexeme blank ends others =>
      rw [exprWith_atom reads blank (fun c head => ?_) (atom?_literal items _),
        others.skipBlanks_eq]
      obtain rfl : '"' = c := by simpa [Lexeme.spelling] using head
      decide
  | bare items nonempty => exact exprWith_of_scans_bare reads nonempty scans
  | @marked mark lexemes d derives =>
    rw [← Datum.marked_eq, Datum.depth_marked] at shallow
    obtain - | complete_inner := below
    · cases shallow
    cases scans with
    | lexeme blank ends others =>
      have front := skipBlanks_split_lexeme blank (.mark mark) _ ▸ mark?_spelling ends
      have inner_eq := complete_inner _ _ _ _ derives (Nat.le_of_succ_le_succ shallow) others
      rw [(ExprStep.marked front).exprWith_eq reads, markedWith, inner_eq]
      rfl
  | list parts items =>
    obtain - | complete_inner := below
    · rw [Datum.depth_list] at shallow
      cases shallow
    rw [Datum.depth_list_le_iff, List.forall_mem_map] at shallow
    exact exprWith_of_scans_list (reads _ rfl) complete_inner items shallow scans

/-- Expressions that are deep enough are read, whatever is behind them. -/
theorem exprAt_complete (options : ReadOptions) (depth : Nat) :
    Complete options depth (exprAt options depth) :=
  exprAt_induction exprWith_complete depth

end Completeness

private theorem scans_nil_of_skipBlanks {text : List Char} (h : skipBlanks (split text) = []) :
    Scans [] text [] := by
  obtain ⟨gap, body, blank, rfl, body_eq⟩ := exists_skipBlanks_split text
  obtain rfl := split_eq_nil (body_eq.symm.trans h)
  exact .done [] blank

theorem exprAt_eq_ok_some_iff {options : ReadOptions} {depth : Nat} {text : List Char} {d : Datum} :
    exprAt options depth (split text) = .ok (some d) [] ↔
      ∃ lexemes, Scans lexemes text [] ∧ Derives options lexemes d ∧ d.depth ≤ depth := by
  constructor
  · intro expr_eq
    obtain ⟨lexemes, behind, scans, derives, shallow, nil_eq⟩ := exprAt_sound _ _ _ _ _ expr_eq
    have scans := scans.append (scans_nil_of_skipBlanks nil_eq.symm)
    rw [List.append_nil] at scans
    exact ⟨lexemes, scans, derives, shallow⟩
  · rintro ⟨lexemes, scans, derives, shallow⟩
    exact exprAt_complete options depth lexemes d text [] derives shallow scans

end SExpr

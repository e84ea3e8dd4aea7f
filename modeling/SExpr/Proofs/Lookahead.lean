import SExpr.Proofs.Place

namespace SExpr

def SameNext (rest rest' : List TextUnit) : Prop :=
  ∃ u after after', rest = u :: after ∧ rest' = u :: after'

def Outcome.leaving {α : Type} (rest : List TextUnit) : Outcome α → Outcome α
  | .ok value _ => .ok value rest
  | .error fault _ => .error fault rest

/-- What comes behind the unit in front of which a production stops makes no difference to it. -/
def LooksOneAhead {α : Type} (production : Production α) : Prop :=
  ∀ front rest rest', SameNext rest rest' → (production (front ++ rest)).rest = rest →
    production (front ++ rest') = (production (front ++ rest)).leaving rest'

namespace SameNext

variable {rest rest' : List TextUnit}

private theorem append (h : SameNext rest rest') (front : List TextUnit) :
    SameNext (front ++ rest) (front ++ rest') := by
  cases front with
  | nil => exact h
  | cons u front => exact ⟨u, front ++ rest, front ++ rest', rfl, rfl⟩

private theorem append_right (ne_nil : rest ≠ []) (more : List TextUnit) :
    SameNext rest (rest ++ more) := by
  obtain ⟨u, after, rfl⟩ := List.exists_cons_of_ne_nil ne_nil
  exact ⟨u, after, after ++ more, rfl, rfl⟩

private theorem ne_nil (h : SameNext rest rest') : rest ≠ [] := by
  obtain ⟨u, after, after', rfl, rfl⟩ := h
  exact List.cons_ne_nil u after

private theorem head?_eq (h : SameNext rest rest') : rest.head? = rest'.head? := by
  obtain ⟨u, after, after', rfl, rfl⟩ := h
  rfl

private theorem peek?_eq (h : SameNext rest rest') : peek? rest = peek? rest' :=
  congrArg (Option.map TextUnit.first) h.head?_eq

private theorem mark?_eq_none (h : SameNext rest rest') (unmarked : mark? rest = none) :
    mark? rest' = none := by
  obtain ⟨u, after, after', rfl, rfl⟩ := h
  exact mark?_cons_eq_none_iff.2 (mark?_cons_eq_none_iff.1 unmarked)

end SameNext

private theorem exists_front {front rest more : List TextUnit} {u : TextUnit}
    (h : front ++ rest = u :: more) (suffix : rest <:+ more) :
    ∃ front', front = u :: front' ∧ more = front' ++ rest := by
  cases front with
  | nil =>
    have length_le := suffix.length_le
    rw [show rest = u :: more from h, List.length_cons] at length_le
    omega
  | cons v front =>
    obtain ⟨rfl, rfl⟩ := List.cons.inj h
    exact ⟨front, rfl, rfl⟩

section Blanks

theorem exists_gap_append (text : List TextUnit) :
    ∃ gap, (∀ u ∈ gap, isBlank u.first) ∧ text = gap ++ skipBlanks text := by
  refine ⟨text.takeWhile (isBlank ·.first), ?_, List.takeWhile_append_dropWhile.symm⟩
  intro u h
  exact List.all_eq_true.1 (List.all_takeWhile (p := (isBlank ·.first))) u h

private theorem skipBlanks_gap_append {gap : List TextUnit} (blank : ∀ u ∈ gap, isBlank u.first)
    (text : List TextUnit) : skipBlanks (gap ++ text) = skipBlanks text :=
  List.dropWhile_append_of_pos blank

private theorem skipBlanks_sameNext {front front' rest rest' : List TextUnit}
    (next : SameNext rest rest') (h : skipBlanks (front ++ rest) = front' ++ rest) :
    skipBlanks (front ++ rest') = front' ++ rest' := by
  obtain ⟨gap, blank, text_eq⟩ := exists_gap_append (front ++ rest)
  rw [h, ← List.append_assoc] at text_eq
  obtain rfl := List.append_cancel_right text_eq
  rw [List.append_assoc, skipBlanks_gap_append blank] at h ⊢
  obtain ⟨u, after, after', rest_eq, rest_eq'⟩ := next.append front'
  rw [rest_eq] at h
  rw [rest_eq', skipBlanks_cons_of_not_blank (isBlank_of_skipBlanks h)]

end Blanks

namespace LooksOneAhead

variable {α β : Type} {production : Production α}

private theorem map (h : LooksOneAhead production) (f : α → β) :
    LooksOneAhead fun text => (production text).map f := by
  intro front rest rest' next stops
  simp only [Outcome.rest_map] at stops
  simp only [h front rest rest' next stops]
  cases production (front ++ rest) <;> rfl

private theorem skipBlanks (h : LooksOneAhead production) (forward : Forward production) :
    LooksOneAhead fun text => (production text).skipBlanks := by
  intro front rest rest' next stops
  have suffix := forward (front ++ rest)
  simp only at stops ⊢
  cases outcome : production (front ++ rest) with
  | error fault more =>
    rw [outcome] at stops
    obtain rfl : more = rest := stops
    rw [h front more rest' next (by rw [outcome]; rfl), outcome]
    rfl
  | ok value more =>
    rw [outcome] at stops suffix
    have stops : SExpr.skipBlanks more = rest := stops
    obtain ⟨gap, blank, rfl⟩ : ∃ gap, (∀ u ∈ gap, isBlank u.first) ∧ more = gap ++ rest :=
      stops ▸ exists_gap_append more
    obtain ⟨front', front_eq⟩ := suffix
    rw [Outcome.rest_ok, ← List.append_assoc] at front_eq
    obtain rfl := List.append_cancel_right front_eq
    rw [List.append_assoc] at outcome ⊢
    rw [h front' (gap ++ rest) (gap ++ rest') (next.append gap) (by rw [outcome]; rfl), outcome]
    have blanks : SExpr.skipBlanks (gap ++ rest') = [] ++ rest' := skipBlanks_sameNext next stops
    simp [Outcome.leaving, blanks]

theorem append (h : LooksOneAhead production) (forward : Forward production)
    {text : List TextUnit} (ne_nil : (production text).rest ≠ []) (more : List TextUnit) :
    production (text ++ more) = (production text).leaving ((production text).rest ++ more) := by
  obtain ⟨front, text_eq⟩ := forward text
  have replaced := h front _ _ (.append_right ne_nil more) (by rw [text_eq])
  rwa [← List.append_assoc, text_eq] at replaced

end LooksOneAhead

section Atoms

private theorem literalFrom_looksOneAhead (taken : List Char) :
    LooksOneAhead (literalFrom taken) := by
  intro front rest rest' next stops
  generalize text_eq : front ++ rest = text at stops ⊢
  induction taken, text using literalFrom_induction generalizing front with
  | nil taken =>
    rw [literalFrom_nil] at stops
    exact absurd stops.symm next.ne_nil
  | plain taken u more plain ih =>
    have suffix := literalFrom_forward (u.chars.reverse ++ taken) more
    rw [literalFrom_plain _ _ plain] at stops ⊢
    rw [stops] at suffix
    obtain ⟨front, rfl, rfl⟩ := exists_front text_eq suffix
    rw [List.cons_append, literalFrom_plain _ _ plain, ih front rfl stops]
  | close taken more =>
    rw [literalFrom_close] at stops ⊢
    obtain ⟨front, rfl, rfl⟩ := exists_front text_eq (stops ▸ List.suffix_rfl)
    obtain rfl : front = [] := by simpa using stops
    exact literalFrom_close taken rest'
  | backslash taken =>
    rw [literalFrom_backslash] at stops
    exact absurd stops.symm next.ne_nil
  | escape taken escaped more ih =>
    have suffix := literalFrom_forward ((unescape escaped).reverse ++ taken) more
    rw [literalFrom_escape] at stops ⊢
    rw [stops] at suffix
    obtain ⟨front, rfl, tail_eq⟩ := exists_front text_eq (suffix.trans (List.suffix_cons ..))
    obtain ⟨front, rfl, rfl⟩ := exists_front tail_eq.symm suffix
    rw [List.cons_append, List.cons_append, literalFrom_escape, ih front rfl stops]

private theorem bareFrom_sameNext {taken : List Char} {front rest rest' : List TextUnit}
    (next : SameNext rest rest') (stops : (bareFrom taken (front ++ rest)).2 = rest) :
    bareFrom taken (front ++ rest') = ((bareFrom taken (front ++ rest)).1, rest') := by
  generalize text_eq : front ++ rest = text at stops ⊢
  induction taken, text using bareFrom_induction generalizing front with
  | nil taken =>
    rw [bareFrom_nil] at stops
    exact absurd stops.symm next.ne_nil
  | plain taken u more plain ih =>
    have suffix := bareFrom_suffix (u.chars.reverse ++ taken) more
    rw [bareFrom_plain _ _ plain] at stops ⊢
    rw [stops] at suffix
    obtain ⟨front, rfl, rfl⟩ := exists_front text_eq suffix
    rw [List.cons_append, bareFrom_plain _ _ plain, ih rfl stops]
  | backslash taken =>
    rw [bareFrom_backslash] at stops
    exact absurd stops.symm next.ne_nil
  | escape taken escaped more ih =>
    have suffix := bareFrom_suffix (escaped.chars.reverse ++ taken) more
    rw [bareFrom_escape] at stops ⊢
    rw [stops] at suffix
    obtain ⟨front, rfl, tail_eq⟩ := exists_front text_eq (suffix.trans (List.suffix_cons ..))
    obtain ⟨front, rfl, rfl⟩ := exists_front tail_eq.symm suffix
    rw [List.cons_append, List.cons_append, bareFrom_escape, ih rfl stops]
  | stop taken u more stop notBackslash =>
    rw [bareFrom_stop _ _ stop notBackslash] at stops ⊢
    obtain ⟨v, after, after', rfl, rfl⟩ := next
    cases stops
    obtain rfl : front = [] := by simpa using text_eq
    exact bareFrom_stop taken after' stop notBackslash

private theorem literal_looksOneAhead (options : ReadOptions) :
    LooksOneAhead (literal options) := by
  intro front rest rest' next stops
  unfold literal at stops ⊢
  rw [Outcome.rest_map] at stops
  have suffix := literalFrom_forward [] (front ++ rest).tail
  rw [stops] at suffix
  cases text_eq : front ++ rest with
  | nil => exact absurd (List.append_eq_nil_iff.1 text_eq).2 next.ne_nil
  | cons u more =>
    rw [text_eq] at suffix stops
    obtain ⟨front, rfl, rfl⟩ := exists_front text_eq suffix
    exact (literalFrom_looksOneAhead []).map options.literalText front rest rest' next
      (by rwa [Outcome.rest_map])

theorem bare?_looksOneAhead : LooksOneAhead bare? := by
  intro front rest rest' next stops
  by_cases nil : (bareFrom [] (front ++ rest)).1 = []
  · have none_eq := bare?_of_nil (Prod.ext nil rfl)
    rw [none_eq] at stops ⊢
    have none_eq' : bareFrom [] (front ++ rest') = ([], rest') := by
      rw [bareFrom_sameNext next stops, nil]
    rw [bare?_of_nil none_eq']
    rfl
  · have some_eq := bare?_of_ne_nil nil
    rw [some_eq] at stops ⊢
    have bare_eq := bareFrom_sameNext next stops
    rw [bare?_of_ne_nil (by rwa [bare_eq]), bare_eq]
    rfl

private theorem atom?_looksOneAhead (options : ReadOptions) : LooksOneAhead (atom? options) := by
  intro front rest rest' next stops
  have peek_eq := (next.append front).peek?_eq
  unfold atom? at stops ⊢
  rw [← peek_eq]
  by_cases quote : peek? (front ++ rest) = some '"'
  · rw [if_pos quote] at stops
    rw [if_pos quote, if_pos quote]
    exact (literal_looksOneAhead options).map some front rest rest' next stops
  · rw [if_neg quote] at stops
    rw [if_neg quote, if_neg quote]
    exact bare?_looksOneAhead front rest rest' next stops

end Atoms

section Levels

variable {options : ReadOptions} {inner : Production (Option Datum)}

private theorem mark?_sameNext {front rest rest' : List TextUnit} {text : List TextUnit}
    {mark : QuoteMark} (next : SameNext rest rest') (h : mark? text = some (mark, front ++ rest)) :
    text = mark.units ++ front ++ rest ∧
      mark? (mark.units ++ front ++ rest') = some (mark, front ++ rest') := by
  obtain ⟨rfl, alone⟩ := mark?_eq_some_iff.1 h
  refine ⟨(List.append_assoc ..).symm, mark?_eq_some_iff.2 ⟨List.append_assoc .., ?_⟩⟩
  intro unquote
  rw [← (next.append front).head?_eq]
  exact alone unquote

private theorem markedWith_looksOneAhead (h : LooksOneAhead inner) (mark : QuoteMark) :
    LooksOneAhead (markedWith inner mark) := by
  intro front rest rest' next stops
  rw [rest_markedWith] at stops
  unfold markedWith
  rw [h front rest rest' next stops]
  cases outcome : inner (front ++ rest) with
  | error fault more => rfl
  | ok d? more =>
    rw [outcome] at stops
    cases stops
    cases d? with
    | some d => rfl
    | none =>
      have peek_eq := next.peek?_eq
      rw [Outcome.rest_ok] at peek_eq
      simp [Outcome.leaving, peek_eq]

private theorem Outcome.leaving_map {α β : Type} (rest : List TextUnit) (o : Outcome α)
    (f : α → β) :
    (o.map f).leaving rest = (o.leaving rest).map f := by
  cases o <;> rfl

private theorem ItemRun.leaving (reads : ReadsExpressions inner) (h : LooksOneAhead inner)
    {text : List TextUnit} {o : Outcome (List Datum)} (run : ItemRun inner text o)
    {front rest rest' : List TextUnit} (next : SameNext rest rest') (text_eq : text = front ++ rest)
    (stops : o.rest = rest) : ItemRun inner (front ++ rest') (o.leaving rest') := by
  induction run generalizing front with
  | stop absent =>
    subst text_eq stops
    exact .stop ((h front _ rest' next (by rw [absent]; rfl)).trans (by rw [absent]; rfl))
  | fail fails =>
    subst text_eq stops
    exact .fail ((h front _ rest' next (by rw [fails]; rfl)).trans (by rw [fails]; rfl))
  | @item text mid d o first others ih =>
    rw [Outcome.rest_map] at stops
    obtain ⟨front₂, rfl⟩ : rest <:+ mid := stops ▸ others.suffix reads
    obtain ⟨front₁, front_eq⟩ : front₂ ++ rest <:+ text := by
      have forward := reads.forward text
      rwa [first] at forward
    subst text_eq
    rw [← List.append_assoc] at front_eq
    obtain rfl := List.append_cancel_right front_eq
    rw [List.append_assoc] at first ⊢
    rw [Outcome.leaving_map]
    refine .item ?_ (ih rfl stops)
    -- The first item stops in front of the others, and so has not looked at what is replaced.
    rw [h front₁ (front₂ ++ rest) _ (next.append front₂) (by rw [first]; rfl), first]
    rfl

theorem ItemRun.append (reads : ReadsExpressions inner) (h : LooksOneAhead inner)
    {text : List TextUnit} {o : Outcome (List Datum)} (run : ItemRun inner text o)
    (ne_nil : o.rest ≠ []) (more : List TextUnit) :
    ItemRun inner (text ++ more) (o.leaving (o.rest ++ more)) := by
  obtain ⟨front, text_eq⟩ := run.suffix reads
  have left := run.leaving reads h (.append_right ne_nil more) text_eq.symm rfl
  rwa [← List.append_assoc, text_eq] at left

/-- A list looks at the unit behind its items, and no further. -/
theorem closeList_leaving (reads : ReadsExpressions inner) (h : LooksOneAhead inner)
    {front rest rest' : List TextUnit} {o : Outcome (List Datum)}
    (run : ItemRun inner (front ++ rest) o) (next : SameNext rest rest')
    (stops : (closeList o).rest = rest) :
    ∃ o', ItemRun inner (front ++ rest') o' ∧ closeList o' = (closeList o).leaving rest' := by
  cases o with
  | error fault more => exact ⟨_, run.leaving reads h next rfl stops, rfl⟩
  | ok items more =>
    rcases run.ends reads with rfl | ⟨behind, rfl⟩
    · exact absurd stops.symm next.ne_nil
    · -- The items stop in front of the closing parenthesis, and that stays.
      obtain rfl : behind = rest := stops
      obtain ⟨front', front_eq⟩ := run.suffix reads
      have same : SameNext (.char ')' :: behind) (.char ')' :: rest') := ⟨_, _, _, rfl, rfl⟩
      have run' := run.leaving reads h same front_eq.symm rfl
      rw [Outcome.rest_ok, ← List.singleton_append, ← List.append_assoc] at front_eq
      obtain rfl := List.append_cancel_right front_eq
      exact ⟨_, by simpa using run', rfl⟩

private theorem listWith_looksOneAhead (reads : ReadsExpressions inner) (h : LooksOneAhead inner) :
    LooksOneAhead (listWith (some inner)) := by
  intro front rest rest' next stops
  obtain ⟨u, more, more', text_eq, text_eq'⟩ := next.append front
  by_cases opening : u = .char '('
  · subst opening
    obtain ⟨o, run⟩ := exists_itemRun reads more
    rw [text_eq, run.listWith_eq reads] at stops ⊢
    have suffix := (closeList_suffix o).trans (run.suffix reads)
    rw [stops] at suffix
    obtain ⟨front, rfl, rfl⟩ := exists_front text_eq suffix
    obtain ⟨o', run', close_eq⟩ := closeList_leaving reads h run next stops
    rw [List.cons_append, run'.listWith_eq reads, close_eq]
  · have missing : ∀ more, listWith (some inner) (u :: more) =
        .error (.missingOpening (some u.first)) (u :: more) := by
      intro more
      refine listWith_of_not_opening (fun first => opening ?_) _
      exact TextUnit.eq_char_of_first (Option.some.inj first) (by decide)
    rw [text_eq, missing] at stops ⊢
    obtain rfl : u :: more = rest := stops
    obtain rfl : front = [] := by simpa using text_eq
    rw [text_eq', missing]
    exact congrArg _ text_eq'.symm

theorem exprWith_list {inner : Option (Production (Option Datum))} {text : List TextUnit}
    (opening : peek? (skipBlanks text) = some '(') :
    exprWith options inner text = ((listWith inner (skipBlanks text)).map some).skipBlanks := by
  have unmarked : mark? (skipBlanks text) = none := by
    cases front : skipBlanks text with
    | nil => rfl
    | cons u content =>
      rw [mark?_cons_eq_none_iff, show u.first = '(' by simpa [front, peek?] using opening]
      rfl
  simp only [exprWith, unmarked]
  exact if_pos opening

private theorem LooksOneAhead.behindBlanks {α : Type} {production : Production α}
    (h : LooksOneAhead production) (forward : Forward production) {front rest rest' : List TextUnit}
    (next : SameNext rest rest')
    (stops : (production (SExpr.skipBlanks (front ++ rest))).rest = rest) :
    SameNext (SExpr.skipBlanks (front ++ rest)) (SExpr.skipBlanks (front ++ rest')) ∧
      production (SExpr.skipBlanks (front ++ rest')) =
        (production (SExpr.skipBlanks (front ++ rest))).leaving rest' := by
  obtain ⟨front', text_eq⟩ : rest <:+ SExpr.skipBlanks (front ++ rest) := by
    have suffix := forward (SExpr.skipBlanks (front ++ rest))
    rwa [stops] at suffix
  rw [skipBlanks_sameNext next text_eq.symm]
  rw [← text_eq] at stops ⊢
  exact ⟨next.append front', h front' rest rest' next stops⟩

private theorem exprWith_looksOneAhead {inner : Option (Production (Option Datum))}
    (reads : ∀ production ∈ inner, ReadsExpressions production)
    (h : ∀ production ∈ inner, LooksOneAhead production) :
    LooksOneAhead (exprWith options inner) := by
  intro front rest rest' next stops
  have step := (exprWith_eq_iff reads).1 (rfl : exprWith options inner (front ++ rest) = _)
  generalize exprWith options inner (front ++ rest) = o at step stops
  generalize text_eq : front ++ rest = text at step
  cases step with
  | @limit _ after u front_eq level =>
    subst text_eq
    obtain rfl : u :: after = rest := stops
    have skips : skipBlanks (front ++ rest') = [] ++ rest' := skipBlanks_sameNext next front_eq
    obtain ⟨_, _, after', cons_eq, rfl⟩ := next
    cases cons_eq
    exact (ExprStep.limit skips level).exprWith_eq reads
  | @marked inner _ more mark front_eq =>
    subst text_eq
    rw [Outcome.rest_map, rest_markedWith] at stops
    obtain ⟨front', rfl⟩ : rest <:+ more := stops ▸ (reads inner rfl).forward more
    obtain ⟨skips, front_eq'⟩ := mark?_sameNext next front_eq
    rw [← skipBlanks_sameNext next skips] at front_eq'
    rw [(ExprStep.marked front_eq').exprWith_eq reads,
      markedWith_looksOneAhead (h inner rfl) mark front' rest rest' next
        (by rwa [rest_markedWith]), Outcome.leaving_map]
  | @list inner _ content o opening items =>
    subst text_eq
    rw [← items.listWith_eq (reads inner rfl), ← opening] at stops ⊢
    have forward : Forward (listWith (some inner)) :=
      listWith_forward fun production h => (reads production h).forward
    have looks := listWith_looksOneAhead (reads inner rfl) (h inner rfl)
    obtain ⟨same, list_eq⟩ := ((looks.map some).skipBlanks (forward.map some)).behindBlanks
      (forward.map some).skipBlanks next stops
    rw [← list_eq]
    exact exprWith_list (same.peek?_eq ▸ congrArg peek? opening)
  | atom unmarked notOpening =>
    subst text_eq
    have forward := (atom?_forward options).map (Option.map Datum.atom)
    have looks := (atom?_looksOneAhead options).map (Option.map Datum.atom)
    obtain ⟨same, atom_eq⟩ := (looks.skipBlanks forward).behindBlanks forward.skipBlanks next stops
    rw [← atom_eq]
    have step' : ExprStep options inner (front ++ rest') _ :=
      .atom (same.mark?_eq_none unmarked) (same.peek?_eq ▸ notOpening)
    exact step'.exprWith_eq reads

theorem exprAt_looksOneAhead (options : ReadOptions) (depth : Nat) :
    LooksOneAhead (exprAt options depth) :=
  exprAt_induction (fun below => exprWith_looksOneAhead below.reads below.known) depth

theorem document_looksOneAhead (options : ReadOptions) : LooksOneAhead (document options) := by
  intro front rest rest' next stops
  rw [rest_document] at stops
  simp only [document, exprAt_looksOneAhead options _ front rest rest' next stops]
  cases outcome : exprAt options options.maxDepth (front ++ rest) with
  | error fault more => rfl
  | ok d? more =>
    obtain rfl : more = rest := by rwa [outcome] at stops
    obtain ⟨u, after, after', rfl, rfl⟩ := next
    rfl

end Levels

end SExpr

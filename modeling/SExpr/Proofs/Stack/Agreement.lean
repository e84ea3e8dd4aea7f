import SExpr.Proofs.Grammar.Scan
import SExpr.Proofs.Stack.Reader

/-!
# The stack agrees with the grammar

The levels on the stack and those that the production may still begin are as many as the limit
allows.
-/

namespace SExpr

namespace StackReader

section Run

variable {options : ReadOptions} {progress progress' : Progress} {cursor cursor' : Cursor}

private theorem run_of_result {result : Except ReadError Datum}
    (h : turn options progress cursor = .result result) : run options progress cursor = result := by
  rw [run]
  split <;> simp_all

private theorem run_of_goOn (h : turn options progress cursor = .goOn progress' cursor') :
    run options progress cursor = run options progress' cursor' := by
  rw [run]
  split <;> simp_all

private theorem run_eq_of_turn_eq
    (h : turn options progress cursor = turn options progress cursor') :
    run options progress cursor = run options progress cursor' := by
  cases turn_eq : turn options progress cursor with
  | result result => rw [run_of_result turn_eq, run_of_result (h.symm.trans turn_eq)]
  | goOn next cursor => rw [run_of_goOn turn_eq, run_of_goOn (h.symm.trans turn_eq)]

private theorem run_skipBlanks (options : ReadOptions) (progress : Progress) (cursor : Cursor) :
    run options progress (cursor.advanceTo (skipBlanks cursor.rest)) =
      run options progress cursor := by
  have suffix := skipBlanks_suffix cursor.rest
  apply run_eq_of_turn_eq
  unfold turn
  rw [Cursor.skipBlanks_eq, Cursor.skipBlanks_eq, Cursor.rest_advanceTo suffix,
    skipBlanks_skipBlanks, Cursor.advanceTo_advanceTo suffix List.suffix_rfl]

end Run

section Scans

variable {cursor : Cursor}

private theorem decoded_eq_unescape (u : TextUnit) : decoded u = unescape u := by
  cases u with
  | char c => rw [unescape_char, decoded]
  | crlf => rfl

def found {α : Type} (cursor : Cursor) : Outcome α → Except ReadError (α × Cursor)
  | .ok value rest => .ok (value, cursor.advanceTo rest)
  | .error fault rest => .error ⟨fault, (cursor.advanceTo rest).position⟩

private theorem found_advanceTo {α : Type} {middle : List TextUnit} {o : Outcome α}
    (first : middle <:+ cursor.rest) (second : o.rest <:+ middle) :
    found (cursor.advanceTo middle) o = found cursor o := by
  unfold found
  split <;> simp only [Outcome.rest_ok, Outcome.rest_error] at second <;>
    rw [Cursor.advanceTo_advanceTo first second]

private theorem scanLiteral_eq (taken : List Char) {text : List TextUnit} (h : cursor.rest = text) :
    scanLiteral false taken.reverse cursor = found cursor (literalFrom taken text) := by
  induction taken, text using literalFrom_induction generalizing cursor with
  | nil taken =>
    rw [scanLiteral_of_nil _ _ h, literalFrom_nil, found, ← h, Cursor.advanceTo_self]
  | plain taken u rest plain ih =>
    have behind : rest <:+ cursor.rest := h ▸ List.suffix_cons u rest
    have further := ih (Cursor.rest_advanceTo behind)
    have notQuote : u ≠ .char '"' := by rintro rfl; cases plain
    have notBackslash : u ≠ .char '\\' := by rintro rfl; cases plain
    rw [found_advanceTo behind (literalFrom_forward _ rest)] at further
    rw [scanLiteral_of_cons _ _ h, literalFrom_plain _ _ plain, ← further]
    simp [notQuote, notBackslash]
  | close taken rest =>
    rw [scanLiteral_of_cons _ _ h, literalFrom_close]
    rfl
  | backslash taken =>
    have behind : [] <:+ cursor.rest := List.nil_suffix
    rw [scanLiteral_of_cons _ _ h, literalFrom_backslash]
    exact scanLiteral_of_nil _ _ (Cursor.rest_advanceTo behind)
  | escape taken escaped rest ih =>
    have behind : escaped :: rest <:+ cursor.rest := h ▸ List.suffix_cons ..
    have behind' : rest <:+ escaped :: rest := List.suffix_cons ..
    have further := ih (Cursor.rest_advanceTo (behind'.trans behind))
    rw [found_advanceTo (behind'.trans behind) (literalFrom_forward _ rest)] at further
    rw [scanLiteral_of_cons _ _ h, literalFrom_escape, ← further]
    -- The reference scan takes the backslash and the unit behind it in two steps.
    have second := scanLiteral_of_cons true taken.reverse (Cursor.rest_advanceTo behind)
    rw [Cursor.advanceTo_advanceTo behind behind', decoded_eq_unescape] at second
    simpa using second

private theorem stopsAtom_eq (c : Char) : stopsAtom c = (endsBare c || c == '\\') := by
  rw [Bool.eq_iff_iff]
  simp only [stopsAtom, endsBare, Bool.or_eq_true, beq_iff_eq, Option.isSome_iff_exists,
    QuoteMark.ofChar?_eq_some_iff, List.contains_iff_mem, List.mem_cons, List.not_mem_nil,
    exists_or, exists_and_left, exists_eq, and_true, or_false]
  tauto

private theorem scanBare_eq (taken : List Char) {text : List TextUnit} (h : cursor.rest = text) :
    scanBare false taken.reverse cursor =
      ((bareFrom taken text).1, cursor.advanceTo (bareFrom taken text).2) := by
  induction taken, text using bareFrom_induction generalizing cursor with
  | nil taken => rw [scanBare_of_nil _ _ h, bareFrom_nil, ← h, Cursor.advanceTo_self]
  | plain taken u rest plain ih =>
    have behind : rest <:+ cursor.rest := h ▸ List.suffix_cons u rest
    have further := ih (Cursor.rest_advanceTo behind)
    rw [Cursor.advanceTo_advanceTo behind (bareFrom_suffix _ rest)] at further
    have notBackslash : u ≠ .char '\\' := by rintro rfl; cases plain
    rw [stopsAtom_eq, Bool.or_eq_false_iff] at plain
    rw [scanBare_of_cons _ _ h, bareFrom_plain _ _ (by simpa [stopsAtom_eq] using plain), ← further]
    simp [notBackslash, plain.1]
  | backslash taken =>
    rw [scanBare_of_cons _ _ h, bareFrom_backslash]
    exact scanBare_of_nil _ _ (Cursor.rest_advanceTo List.nil_suffix)
  | escape taken escaped rest ih =>
    have behind : escaped :: rest <:+ cursor.rest := h ▸ List.suffix_cons ..
    have behind' : rest <:+ escaped :: rest := List.suffix_cons ..
    have further := ih (Cursor.rest_advanceTo (behind'.trans behind))
    rw [Cursor.advanceTo_advanceTo (behind'.trans behind) (bareFrom_suffix _ rest)] at further
    rw [scanBare_of_cons _ _ h, bareFrom_escape, ← further]
    -- The reference scan takes the backslash and the unit behind it in two steps.
    have second := scanBare_of_cons true taken.reverse (Cursor.rest_advanceTo behind)
    rw [Cursor.advanceTo_advanceTo behind behind'] at second
    simpa using second
  | stop taken u rest stops notBackslash =>
    have backslash : u ≠ .char '\\' := by rintro rfl; exact notBackslash rfl
    rw [scanBare_of_cons _ _ h, bareFrom_stop _ _ stops notBackslash, ← h, Cursor.advanceTo_self]
    have ends : endsBare u.first := by simpa [stopsAtom_eq, notBackslash] using stops
    simp [backslash, ends]

end Scans

section Tokens

variable (options : ReadOptions) (stack : List Frame) (cursor behind : Cursor)

private theorem takeToken_opening :
    takeToken options stack cursor (.char '(') behind =
      openLevel options stack cursor (.list []) behind :=
  rfl

private theorem takeToken_closing :
    takeToken options stack cursor (.char ')') behind = closeLevel stack cursor behind :=
  rfl

private theorem takeToken_quote :
    takeToken options stack cursor (.char '"') behind = takeLiteral options stack behind :=
  rfl

private theorem takeToken_comma :
    takeToken options stack cursor (.char ',') behind = takeComma options stack cursor behind :=
  rfl

private theorem takeToken_mark {u : TextUnit} {rest : List TextUnit} {mark : QuoteMark}
    (marked : mark? (u :: behind.rest) = some (mark, rest)) :
    takeToken options stack cursor u behind =
      openLevel options stack cursor (.mark mark) (behind.advanceTo rest) := by
  rw [mark?_cons] at marked
  split at marked
  · cases marked
  · rename_i first_eq rest_eq
    cases marked
    obtain ⟨-, none_eq⟩ | ⟨-, none_eq⟩ | ⟨comma, -⟩ := QuoteMark.ofChar?_eq_some_iff.1 first_eq
    · cases none_eq
    · cases none_eq
    · rw [TextUnit.eq_char_of_first comma (by decide), takeToken_comma, takeComma,
        Cursor.next?_eq rest_eq]
      rfl
  · rename_i first_eq not_splicing
    cases marked
    rw [Cursor.advanceTo_self]
    obtain ⟨sign, rfl⟩ | ⟨sign, rfl⟩ | ⟨sign, rfl⟩ := QuoteMark.ofChar?_eq_some_iff.1 first_eq
    · rw [TextUnit.eq_char_of_first sign (by decide)]
      rfl
    · rw [TextUnit.eq_char_of_first sign (by decide)]
      rfl
    · rw [TextUnit.eq_char_of_first sign (by decide), takeToken_comma, takeComma]
      split
      · rename_i next_eq
        exact absurd rfl (not_splicing _ (Cursor.rest_eq_of_next? next_eq))
      · rfl

end Tokens

/-- Goes on at `cursor` with what a production that reads expressions has come to there. -/
def resume (options : ReadOptions) (stack : List Frame) (cursor : Cursor) :
    Outcome (Option Datum) → Except ReadError Datum
  | .ok (some d) rest => run options (deliver d stack) (cursor.advanceTo rest)
  | .ok none rest => run options (.within stack) (cursor.advanceTo rest)
  | .error fault rest => .error ⟨fault, (cursor.advanceTo rest).position⟩

section Resume

variable (options : ReadOptions) (stack : List Frame) {cursor : Cursor}

private theorem resume_advanceTo {middle : List TextUnit} {o : Outcome (Option Datum)}
    (first : middle <:+ cursor.rest) (second : o.rest <:+ middle) :
    resume options stack (cursor.advanceTo middle) o = resume options stack cursor o := by
  unfold resume
  split <;> simp only [Outcome.rest_ok, Outcome.rest_error] at second <;>
    rw [Cursor.advanceTo_advanceTo first second]

private theorem resume_skipBlanks {o : Outcome (Option Datum)} (suffix : o.rest <:+ cursor.rest) :
    resume options stack cursor o.skipBlanks = resume options stack cursor o := by
  have blanks : ∀ progress, run options progress (cursor.advanceTo (skipBlanks o.rest)) =
      run options progress (cursor.advanceTo o.rest) := by
    intro progress
    rw [← run_skipBlanks options progress (cursor.advanceTo o.rest), Cursor.rest_advanceTo suffix,
      Cursor.advanceTo_advanceTo suffix (skipBlanks_suffix o.rest)]
  cases o with
  | error fault rest => rfl
  | ok d? rest => cases d? <;> exact blanks _

end Resume

section Ends

variable {options : ReadOptions} {cursor : Cursor}

private theorem run_at_end (progress : Progress) (h : cursor.rest = []) :
    run options progress cursor = endOfText progress cursor.position := by
  have front : skipBlanks cursor.rest = [] := by rw [h]; rfl
  rw [run_of_result (turn_of_nil options progress front), ← h, Cursor.advanceTo_self]

private theorem turn_at_closing (stack : List Frame) {rest : List TextUnit}
    (h : cursor.rest = .char ')' :: rest) :
    turn options (.within stack) cursor = closeLevel stack cursor (cursor.advanceTo rest) := by
  have front : skipBlanks cursor.rest = .char ')' :: rest :=
    h ▸ skipBlanks_cons_of_not_blank (by decide) rest
  rw [turn_within options stack front, takeToken_closing, ← h, Cursor.advanceTo_self]

private theorem run_absent (stack : List Frame) {rest : List TextUnit}
    (absent : Absent (skipBlanks cursor.rest) rest) :
    run options (.within stack) cursor = run options (.within stack) (cursor.advanceTo rest) := by
  generalize front : skipBlanks cursor.rest = units at absent
  cases absent with
  | atEnd => rw [← front, run_skipBlanks]
  | closing rest => rw [← front, run_skipBlanks]
  | backslash =>
    have suffix := front ▸ skipBlanks_suffix cursor.rest
    have token : turn options (.within stack) cursor =
        .result (endOfText (.within stack) (cursor.advanceTo []).position) := by
      have atEnd : (cursor.advanceTo []).atEnd := by
        rw [Cursor.atEnd, Cursor.rest_advanceTo List.nil_suffix]
        rfl
      rw [turn_within options stack front]
      exact if_pos ⟨rfl, atEnd⟩
    rw [run_of_result token, run_at_end _ (Cursor.rest_advanceTo List.nil_suffix)]

end Ends

section Atoms

variable {options : ReadOptions} (stack : List Frame) {cursor : Cursor}

private theorem takeToken_bare {u : TextUnit} (unmarked : QuoteMark.ofChar? u.first = none)
    (notOpening : u.first ≠ '(') (notQuote : u.first ≠ '"') {behind : Cursor}
    (taken : (bareFrom [] (u :: behind.rest)).1 ≠ []) :
    takeToken options stack cursor u behind = takeBare stack cursor := by
  have notAlone : ¬(u = .char '\\' ∧ behind.atEnd) := by
    rintro ⟨rfl, atEnd⟩
    rw [List.isEmpty_iff.1 atEnd, bareFrom_backslash] at taken
    exact taken rfl
  unfold takeToken
  split
  · exact absurd rfl notOpening
  · rw [bareFrom_stop [] _ (by decide) (by decide)] at taken
    exact absurd rfl taken
  · exact absurd rfl notQuote
  · cases unmarked
  · cases unmarked
  · cases unmarked
  · exact if_neg notAlone

private theorem run_literal {after : List TextUnit}
    (front : skipBlanks cursor.rest = .char '"' :: after) :
    run options (.within stack) cursor =
      resume options stack cursor
        (((literal options (.char '"' :: after)).map some).map (Option.map .atom)) := by
  have suffix : after <:+ cursor.rest :=
    (List.suffix_cons _ after).trans (front ▸ skipBlanks_suffix cursor.rest)
  have scan : scanLiteral false [] (cursor.advanceTo after) = found cursor (literalFrom [] after) :=
    (scanLiteral_eq [] (Cursor.rest_advanceTo suffix)).trans
      (found_advanceTo suffix (literalFrom_forward [] after))
  have turn_eq := turn_within options stack front
  rw [takeToken_quote, takeLiteral, scan] at turn_eq
  rw [literal, List.tail_cons]
  cases literal_eq : literalFrom [] after with
  | ok chars rest =>
    rw [literal_eq] at turn_eq
    rw [run_of_goOn turn_eq, Outcome.map_ok, options.literalText_eq_ite]
    rfl
  | error fault rest =>
    rw [literal_eq] at turn_eq
    exact run_of_result turn_eq

private theorem run_bare {u : TextUnit} {after : List TextUnit}
    (front : skipBlanks cursor.rest = u :: after) (unmarked : QuoteMark.ofChar? u.first = none)
    (notOpening : u.first ≠ '(') (notQuote : u.first ≠ '"')
    (taken : (bareFrom [] (u :: after)).1 ≠ []) :
    run options (.within stack) cursor =
      resume options stack cursor ((bare? (u :: after)).map (Option.map .atom)) := by
  have suffix := front ▸ skipBlanks_suffix cursor.rest
  have behind := Cursor.rest_advanceTo ((List.suffix_cons u after).trans suffix)
  have scan := scanBare_eq [] (Cursor.rest_advanceTo suffix)
  have turn_eq := turn_within options stack front
  rw [takeToken_bare stack unmarked notOpening notQuote (by rwa [behind]), takeBare] at turn_eq
  rw [Cursor.advanceTo_advanceTo suffix (bareFrom_suffix [] _), List.reverse_nil] at scan
  rw [scan] at turn_eq
  rw [run_of_goOn turn_eq, bare?_of_ne_nil taken]
  rfl

private theorem run_atom (unmarked : mark? (skipBlanks cursor.rest) = none)
    (notOpening : peek? (skipBlanks cursor.rest) ≠ some '(') :
    run options (.within stack) cursor =
      resume options stack cursor
        ((atom? options (skipBlanks cursor.rest)).map (Option.map .atom)) := by
  have absent : ∀ rest, atom? options (skipBlanks cursor.rest) = .ok none rest →
      run options (.within stack) cursor = run options (.within stack) (cursor.advanceTo rest) :=
    fun rest atom_eq => run_absent stack
      ((atom?_eq_none_iff (skipBlanks_skipBlanks _) unmarked notOpening).1 atom_eq)
  cases front : skipBlanks cursor.rest with
  | nil => exact absent [] (by rw [front]; rfl)
  | cons u after =>
    rw [front] at unmarked notOpening absent
    replace unmarked := mark?_cons_eq_none_iff.1 unmarked
    replace notOpening : u.first ≠ '(' := by simpa [peek?] using notOpening
    by_cases quote : u.first = '"'
    · obtain rfl := TextUnit.eq_char_of_first quote (by decide)
      exact run_literal stack front
    · have atom_eq : atom? options (u :: after) = bare? (u :: after) :=
        if_neg (by simpa [peek?] using quote)
      rw [atom_eq] at absent ⊢
      by_cases taken : (bareFrom [] (u :: after)).1 = []
      · have none_eq := bare?_of_nil (Prod.ext taken rfl)
        rw [absent _ none_eq, none_eq]
        rfl
      · exact run_bare stack front unmarked notOpening quote taken

end Atoms

/-- From any levels on, a reader with a stack goes on as `inner` does with `depth` levels more. -/
def Simulates (options : ReadOptions) (depth : Nat) (inner : Production (Option Datum)) : Prop :=
  ∀ stack cursor, stack.length + depth = options.maxDepth →
    run options (.within stack) cursor = resume options stack cursor (inner cursor.rest)

section Levels

variable {options : ReadOptions} {depth : Nat} {inner : Production (Option Datum)}

def resumeItems (options : ReadOptions) (items : List Datum) (stack : List Frame)
    (cursor : Cursor) : Outcome (List Datum) → Except ReadError Datum
  | .ok more rest =>
    run options (.within (.list (more.reverse ++ items) :: stack)) (cursor.advanceTo rest)
  | .error fault rest => .error ⟨fault, (cursor.advanceTo rest).position⟩

private theorem run_items (reads : ReadsExpressions inner)
    (simulates : Simulates options depth inner)
    {stack : List Frame} (level : stack.length + 1 + depth = options.maxDepth)
    {text : List TextUnit} {o : Outcome (List Datum)} (items : ItemRun inner text o)
    {cursor : Cursor} (rest_eq : cursor.rest = text) (before : List Datum) :
    run options (.within (.list before :: stack)) cursor =
      resumeItems options before stack cursor o := by
  have turns := fun before cursor => simulates (.list before :: stack) cursor level
  induction items generalizing cursor before with
  | stop absent => rw [turns, rest_eq, absent]; rfl
  | fail fails => rw [turns, rest_eq, fails]; rfl
  | @item text mid d o first others ih =>
    subst rest_eq
    have mid_suffix : mid <:+ cursor.rest := by
      have forward := reads.forward cursor.rest
      rwa [first] at forward
    have same := Cursor.advanceTo_advanceTo mid_suffix (others.suffix reads)
    rw [turns, first]
    change run options (.within (.list (d :: before) :: stack)) (cursor.advanceTo mid) = _
    rw [ih (Cursor.rest_advanceTo mid_suffix)]
    cases o with
    | ok items rest =>
      rw [Outcome.rest_ok] at same
      simp [resumeItems, same]
    | error fault rest =>
      rw [Outcome.rest_error] at same
      simp [resumeItems, same]

private theorem resumeItems_eq (reads : ReadsExpressions inner) (stack : List Frame)
    {cursor : Cursor} {text : List TextUnit} {o : Outcome (List Datum)}
    (items : ItemRun inner text o) (suffix : o.rest <:+ cursor.rest) :
    resumeItems options [] stack cursor o =
      resume options stack cursor ((closeList o).map some) := by
  cases o with
  | error fault rest => rfl
  | ok items' rest =>
    rw [Outcome.rest_ok] at suffix
    have stands := Cursor.rest_advanceTo suffix
    rcases items.ends reads with rfl | ⟨behind, rfl⟩
    · rw [resumeItems, run_at_end _ stands]
      rfl
    · rw [resumeItems, run_of_goOn (turn_at_closing _ stands),
        Cursor.advanceTo_advanceTo suffix (List.suffix_cons ..)]
      simp [closeList, resume]

private theorem resume_mark (reads : ReadsExpressions inner) (mark : QuoteMark) (stack : List Frame)
    {cursor : Cursor} {text : List TextUnit} (suffix : text <:+ cursor.rest) :
    resume options (.mark mark :: stack) cursor (inner text) =
      resume options stack cursor ((markedWith inner mark text).map some) := by
  have stands := Cursor.rest_advanceTo ((reads.forward text).trans suffix)
  unfold markedWith
  split
  · rename_i inner_eq
    rw [inner_eq]
    rfl
  · rename_i rest inner_eq
    rw [inner_eq] at stands ⊢
    rcases ((reads.absent text rest).1 inner_eq).ends with rfl | ⟨behind, rfl⟩
    · exact run_at_end _ stands
    · exact run_of_result (turn_at_closing _ stands)
  · rename_i inner_eq
    rw [inner_eq]
    rfl

private theorem turn_openLevel (stack : List Frame) (cursor : Cursor) {u : TextUnit}
    {after : List TextUnit} (front : skipBlanks cursor.rest = u :: after)
    (level : beginsLevel u.first) (full : stack.length = options.maxDepth) :
    turn options (.within stack) cursor =
      .result (.error ⟨.tooDeep, (cursor.advanceTo (u :: after)).position⟩) := by
  rw [turn_within options stack front]
  rw [beginsLevel, Bool.or_eq_true, beq_iff_eq, Option.isSome_iff_ne_none] at level
  rcases level with opening | marked
  · rw [TextUnit.eq_char_of_first opening (by decide), takeToken_opening, openLevel, if_pos full]
  · cases found : mark? (u :: (cursor.advanceTo after).rest) with
    | none => exact absurd (mark?_cons_eq_none_iff.1 found) marked
    | some sign => rw [takeToken_mark _ _ _ _ found, openLevel, if_pos full]

private theorem openLevel_of_lt {stack : List Frame} (room : stack.length < options.maxDepth)
    (cursor : Cursor) (frame : Frame) (behind : Cursor) :
    openLevel options stack cursor frame behind = .goOn (.within (frame :: stack)) behind :=
  if_neg (Nat.ne_of_lt room)

private theorem turn_mark (stack : List Frame) {cursor : Cursor} {mark : QuoteMark}
    {rest : List TextUnit} (front : mark? (skipBlanks cursor.rest) = some (mark, rest)) :
    turn options (.within stack) cursor =
      openLevel options stack (cursor.advanceTo (skipBlanks cursor.rest)) (.mark mark)
        (cursor.advanceTo rest) := by
  have suffix := skipBlanks_suffix cursor.rest
  cases units_eq : skipBlanks cursor.rest with
  | nil =>
    rw [units_eq] at front
    cases front
  | cons u after =>
    rw [units_eq] at front suffix
    replace suffix := (List.suffix_cons u after).trans suffix
    have marked : mark? (u :: (cursor.advanceTo after).rest) = some (mark, rest) := by
      rwa [Cursor.rest_advanceTo suffix]
    have further : rest <:+ after := by
      obtain ⟨v, units, sign_eq⟩ := List.exists_cons_of_ne_nil mark.units_ne_nil
      have front_eq := (mark?_eq_some_iff.1 front).1
      rw [sign_eq, List.cons_append] at front_eq
      exact ⟨units, (List.cons.inj front_eq).2.symm⟩
    rw [turn_within options stack units_eq, takeToken_mark _ _ _ _ marked,
      Cursor.advanceTo_advanceTo suffix further]

private theorem exprWith_simulates {inner : Option (Production (Option Datum))}
    (below : LevelBelow options (Simulates options) depth inner) :
    Simulates options depth (exprWith options inner) := by
  intro stack cursor level
  have reads := below.reads
  have step := (exprWith_eq_iff reads).1 (rfl : exprWith options inner cursor.rest = _)
  generalize exprWith options inner cursor.rest = o at step
  have suffix := skipBlanks_suffix cursor.rest
  cases step with
  | limit front begins =>
    obtain full : stack.length = options.maxDepth := by
      cases below
      exact level
    exact run_of_result (turn_openLevel stack cursor front begins full)
  | @marked inner text rest mark front =>
    obtain - | simulates_inner := below
    have behind := (mark?_suffix front).trans suffix
    have forward := (reads _ rfl).forward rest
    -- The mark is one more level on the stack, and `inner` may begin one less.
    have begun : turn options (.within stack) cursor = _ := turn_mark stack front
    rw [openLevel_of_lt (by omega)] at begun
    rw [run_of_goOn begun, simulates_inner _ _ (by rw [List.length_cons]; omega),
      Cursor.rest_advanceTo behind, resume_advanceTo _ _ behind forward,
      resume_mark (reads _ rfl) mark stack behind]
  | @list inner text content o front items =>
    obtain - | simulates_inner := below
    have behind := (List.suffix_cons (.char '(') content).trans (front ▸ suffix)
    have within := items.suffix (reads _ rfl)
    have closed : ((closeList o).map some).rest <:+ content := by
      rw [Outcome.rest_map]
      exact (closeList_suffix o).trans within
    have stands := Cursor.rest_advanceTo behind
    have begun := turn_within options stack front
    rw [takeToken_opening, openLevel_of_lt (by omega)] at begun
    rw [run_of_goOn begun, run_items (reads _ rfl) simulates_inner (by omega) items stands,
      resumeItems_eq (reads _ rfl) stack items (by rwa [stands]),
      resume_advanceTo _ _ behind closed, resume_skipBlanks _ _ (closed.trans behind)]
  | atom unmarked notOpening =>
    rw [run_atom stack unmarked notOpening, resume_skipBlanks]
    rw [Outcome.rest_map]
    exact (atom?_forward options _).trans suffix

private theorem exprAt_simulates (options : ReadOptions) (depth : Nat) :
    Simulates options depth (exprAt options depth) :=
  exprAt_induction exprWith_simulates depth

private theorem resume_document (options : ReadOptions) (cursor : Cursor) :
    resume options [] cursor (exprAt options options.maxDepth cursor.rest) =
      (document options cursor.rest).toExcept.mapError fun fault =>
        ⟨fault, (cursor.advanceTo (document options cursor.rest).rest).position⟩ := by
  have reads := exprAt_readsExpressions options options.maxDepth
  have forward := reads.forward cursor.rest
  have stands := Cursor.rest_advanceTo forward
  have settled := reads.settled cursor.rest
  unfold document
  cases expr_eq : exprAt options options.maxDepth cursor.rest with
  | error fault rest => rfl
  | ok d? rest =>
    rw [expr_eq, Outcome.rest_ok] at forward stands settled
    cases d? with
    | none =>
      rcases ((reads.absent _ _).1 expr_eq).ends with rfl | ⟨behind, rfl⟩
      · exact run_at_end _ stands
      · exact run_of_result (turn_at_closing [] stands)
    | some d =>
      cases rest with
      | nil => exact run_at_end _ stands
      | cons u after =>
        have turn_eq := turn_whole options d ((congrArg skipBlanks stands).trans settled)
        rw [Cursor.advanceTo_advanceTo forward List.suffix_rfl] at turn_eq
        exact run_of_result turn_eq

end Levels

end StackReader

/-- Reading by the productions of the grammar and reading with a stack come to the same, in the
datum or in the fault and its position. -/
theorem read_eq_stackReader_read (options : ReadOptions) (text : String) :
    read options text = StackReader.read options text := by
  have agrees := StackReader.exprAt_simulates options options.maxDepth [] (.ofText text)
    (Nat.zero_add _)
  rw [StackReader.read, agrees, StackReader.resume_document, read_eq]
  rfl

end SExpr

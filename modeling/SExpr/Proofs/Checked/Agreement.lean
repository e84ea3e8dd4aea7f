import SExpr.Proofs.Checked.Reader
import SExpr.Proofs.Runs

/-!
# Nothing overflows

The steps of a part of the grammar are passed one after the other, each with the text that it
leaves.
-/

namespace SExpr

open TextUnit

/-- From `c` on, `reading` comes to the outcome `o` and leaves the cursor where that does. An error
has the place that the cursor is left at. -/
def Meets {α : Type} (text : String) (c : ByteCursor) (reading : Reading α) (o : Outcome α) :
    Prop :=
  ∃ c', reading.run.run c = some (o.toExcept.mapError (⟨·, c'.place⟩), c') ∧ c'.At text o.rest

namespace Meets

variable {α β : Type} {text : String} {rest : List TextUnit} {c : ByteCursor} {reading : Reading α}

private theorem pure (stands : c.At text rest) (a : α) : Meets text c (Pure.pure a) (.ok a rest) :=
  ⟨c, rfl, stands⟩

private theorem fail (stands : c.At text rest) (fault : Fault) :
    Meets text c (Checked.fail fault : Reading α) (.error fault rest) :=
  ⟨c, rfl, stands⟩

private theorem step_of_run {step : Step β} {b : β} {mid : ByteCursor} {f : β → Reading α}
    {o : Outcome α} (run : step.run c = some (b, mid)) (goesOn : Meets text mid (f b) o) :
    Meets text c (liftM step >>= f) o := by
  obtain ⟨c', run', behind⟩ := goesOn
  have lifted : (liftM step : Reading β).run.run c = some (.ok b, mid) := by simp [run]
  refine ⟨c', ?_, behind⟩
  rw [ExceptT.run_bind, StateT.run_bind, lifted]
  exact run'

private theorem step {step : Step β} {b : β} {f : β → Reading α} {o : Outcome α}
    (run : ∃ c', step.run c = some (b, c') ∧ c'.At text rest)
    (goesOn : ∀ c', c'.At text rest → Meets text c' (f b) o) :
    Meets text c (liftM step >>= f) o := by
  obtain ⟨mid, run, behind⟩ := run
  exact step_of_run run (goesOn mid behind)

private theorem peek {f : Option Char → Reading α} {o : Outcome α} (stands : c.At text rest)
    (goesOn : Meets text c (f (peek? rest)) o) : Meets text c (liftM ByteCursor.peek >>= f) o :=
  step_of_run stands.peek_run goesOn

private theorem check {x : Option β} {b : β} {f : β → Reading α} {o : Outcome α} (h : x = some b)
    (goesOn : Meets text c (f b) o) : Meets text c (liftM x >>= f) o := by
  subst h
  exact goesOn

theorem bind {f : α → Reading β} {a : α} {o : Outcome β}
    (first : Meets text c reading (.ok a rest))
    (goesOn : ∀ c', c'.At text rest → Meets text c' (f a) o) : Meets text c (reading >>= f) o := by
  obtain ⟨mid, run, behind⟩ := first
  obtain ⟨c', run', behind'⟩ := goesOn mid behind
  refine ⟨c', ?_, behind'⟩
  rw [ExceptT.run_bind, StateT.run_bind, run]
  exact run'

theorem bind_error {f : α → Reading β} {fault : Fault}
    (first : Meets text c reading (.error fault rest)) :
    Meets text c (reading >>= f) (.error fault rest) := by
  obtain ⟨mid, run, behind⟩ := first
  refine ⟨mid, ?_, behind⟩
  rw [ExceptT.run_bind, StateT.run_bind, run]
  rfl

theorem map {o : Outcome α} (meets : Meets text c reading o) (f : α → β) :
    Meets text c (do return f (← reading)) (o.map f) := by
  cases o with
  | ok a rest => exact meets.bind fun c' behind => .pure behind (f a)
  | error fault rest => exact meets.bind_error

private theorem skipBlanks (short : text.length ≤ UInt32.size - 2) {o : Outcome α}
    (meets : Meets text c reading o) :
    Meets text c (do let a ← reading; ByteCursor.skipBlanks; return a) o.skipBlanks := by
  cases o with
  | ok a rest =>
    refine meets.bind fun c behind => ?_
    exact .step (behind.skipBlanks_run short) fun c behind => .pure behind a
  | error fault rest => exact meets.bind_error

end Meets

namespace Checked

open ByteCursor

section Atoms

private theorem reverse_append_reverse (plain : List Char) (taken : String) :
    plain.reverse ++ taken.toList.reverse = (taken ++ String.ofList plain).toList.reverse := by
  simp

private theorem unescape_char (c : Char) : unescape (.char c) = [(escape? c).getD c] := by
  unfold escape?
  split
  case h_6 => unfold unescape; split <;> simp_all
  all_goals rfl

private theorem unescape_eq (u : TextUnit) :
    String.ofList (unescape u) =
      match escape? u.first with
      | some c => .singleton c
      | none => String.ofList u.chars := by
  cases u with
  | crlf => rfl
  | char c =>
    rw [unescape_char, first_char, chars_char]
    cases escape? c <;> simp

variable {text : String} {u : TextUnit} {rest : List TextUnit} {c : ByteCursor}

private theorem escaped_run_nil (stands : c.At text []) : escaped.run c = some ("", c) := by
  simp [escaped, stands.peek_run, peek?, stands.next_run_nil]

variable (short : text.length ≤ UInt32.size - 2)
include short

private theorem escaped_run (stands : c.At text (u :: rest)) :
    ∃ c', escaped.run c = some (String.ofList (unescape u), c') ∧ c'.At text rest := by
  obtain ⟨c', next_run, behind⟩ := stands.next_run short
  refine ⟨c', ?_, behind⟩
  rw [unescape_eq]
  cases seen : escape? u.first <;> simp [escaped, stands.peek_run, peek?, seen, next_run]

private theorem literalFrom_round (options : WordOptions) (taken : String) {rounds : Nat}
    (goesOn : ∀ taken c left, left.length < rest.length → c.At text left →
      Meets text c (literalFrom options rounds taken)
        ((SExpr.literalFrom taken.toList.reverse left).map options.options.literalText))
    (stands : c.At text rest) :
    Meets text c (literalFrom options (rounds + 1) taken)
      ((SExpr.literalFrom taken.toList.reverse rest).map options.options.literalText) := by
  rw [literalFrom, literalFrom_dropWhile]
  refine .step (stands.takeUntil_run short stopsLiteral) fun c behind => .peek behind ?_
  have shorter := (List.dropWhile_suffix (l := rest) (!stopsLiteral ·.first)).length_le
  generalize join (rest.takeWhile (!stopsLiteral ·.first)) = plain
  rw [reverse_append_reverse]
  generalize taken ++ String.ofList plain = taken
  cases left_eq : rest.dropWhile (!stopsLiteral ·.first) with
  | nil =>
    rw [left_eq] at behind
    rw [literalFrom_nil]
    exact .fail behind _
  | cons u left =>
    have stops : u.first = '"' ∨ u.first = '\\' := by
      simpa [stopsLiteral] using stop_of_dropWhile left_eq
    rw [left_eq] at behind shorter
    rcases stops with quote | backslash
    · obtain rfl := eq_char_of_first quote (by decide)
      rw [literalFrom_close, List.reverse_reverse]
      exact .step (behind.next_run short) fun c behind => .pure behind _
    · obtain rfl := eq_char_of_first backslash (by decide)
      refine .step (behind.next_run short) fun c behind => ?_
      cases left with
      | nil =>
        -- Nothing is escaped, and the next round is at the end of the text.
        refine .step_of_run (escaped_run_nil behind) ?_
        have ends := goesOn (taken ++ "") c [] shorter behind
        rw [literalFrom_nil] at ends
        rwa [literalFrom_backslash]
      | cons v left =>
        refine .step (escaped_run short behind) fun c behind => ?_
        have further := goesOn (taken ++ String.ofList (unescape v)) c left
          (Nat.lt_of_succ_lt shorter) behind
        rw [literalFrom_escape]
        simpa using further

private theorem literalFrom_meets (options : WordOptions) (taken : String) {rounds : Nat}
    (enough : rest.length < rounds) (stands : c.At text rest) :
    Meets text c (literalFrom options rounds taken)
      ((SExpr.literalFrom taken.toList.reverse rest).map options.options.literalText) := by
  induction rounds generalizing taken rest c with
  | zero => exact absurd enough (Nat.not_lt_zero _)
  | succ rounds ih =>
    refine literalFrom_round short options taken (fun taken c left shorter => ?_) stands
    exact ih taken (Nat.lt_of_lt_of_le shorter (Nat.le_of_lt_succ enough))

private theorem bareFrom_round (taken : String) {rounds : Nat}
    (goesOn : ∀ taken c left, left.length < rest.length → c.At text left →
      Meets text c (bareFrom rounds taken)
        (.ok (String.ofList (SExpr.bareFrom taken.toList.reverse left).1)
          (SExpr.bareFrom taken.toList.reverse left).2))
    (stands : c.At text rest) :
    Meets text c (bareFrom (rounds + 1) taken)
      (.ok (String.ofList (SExpr.bareFrom taken.toList.reverse rest).1)
        (SExpr.bareFrom taken.toList.reverse rest).2) := by
  rw [bareFrom, bareFrom_dropWhile]
  refine .step (stands.takeUntil_run short stopsAtom) fun c behind => .peek behind ?_
  have shorter := (List.dropWhile_suffix (l := rest) (!stopsAtom ·.first)).length_le
  generalize join (rest.takeWhile (!stopsAtom ·.first)) = plain
  rw [reverse_append_reverse]
  generalize taken ++ String.ofList plain = taken
  cases left_eq : rest.dropWhile (!stopsAtom ·.first) with
  | nil =>
    rw [left_eq] at behind
    rw [bareFrom_nil, List.reverse_reverse, String.ofList_toList]
    exact .pure behind taken
  | cons u left =>
    rw [left_eq] at behind shorter
    by_cases backslash : u.first = '\\'
    · obtain rfl := eq_char_of_first backslash (by decide)
      refine .step (behind.next_run short) fun c behind => ?_
      cases left with
      | nil =>
        -- The backslash comes to nothing, and the next round is at the end of the text.
        refine .step_of_run behind.next_run_nil ?_
        have ends := goesOn (taken ++ "") c [] shorter behind
        rw [bareFrom_nil] at ends
        rw [bareFrom_backslash]
        simpa using ends
      | cons v left =>
        refine .step (behind.next_run short) fun c behind => ?_
        have further := goesOn (taken ++ String.ofList v.chars) c left
          (Nat.lt_of_succ_lt shorter) behind
        rw [bareFrom_escape]
        simpa using further
    · rw [bareFrom_stop _ _ (stop_of_dropWhile left_eq) backslash, List.reverse_reverse,
        String.ofList_toList]
      rw [if_neg (by simpa [peek?] using backslash)]
      exact .pure behind taken

private theorem bareFrom_meets (taken : String) {rounds : Nat} (enough : rest.length < rounds)
    (stands : c.At text rest) :
    Meets text c (bareFrom rounds taken)
      (.ok (String.ofList (SExpr.bareFrom taken.toList.reverse rest).1)
        (SExpr.bareFrom taken.toList.reverse rest).2) := by
  induction rounds generalizing taken rest c with
  | zero => exact absurd enough (Nat.not_lt_zero _)
  | succ rounds ih =>
    refine bareFrom_round short taken (fun taken c left shorter => ?_) stands
    exact ih taken (Nat.lt_of_lt_of_le shorter (Nat.le_of_lt_succ enough))

private theorem literal_meets (options : WordOptions) (stands : c.At text rest) :
    Meets text c (literal options) (SExpr.literal options.options rest) := by
  cases rest with
  | nil =>
    refine .step_of_run stands.next_run_nil (.step_of_run (rounds_run c) ?_)
    exact literalFrom_meets short options "" stands.length_lt_rounds stands
  | cons u rest =>
    refine .step (stands.next_run short) fun c behind => .step_of_run (rounds_run c) ?_
    exact literalFrom_meets short options "" behind.length_lt_rounds behind

private theorem atom?_meets (options : WordOptions) (stands : c.At text rest) :
    Meets text c (atom? options) (SExpr.atom? options.options rest) := by
  refine .peek stands ?_
  unfold SExpr.atom?
  split
  · exact (literal_meets short options stands).map some
  · refine .step_of_run (rounds_run c) ?_
    refine .bind (bareFrom_meets short "" stands.length_lt_rounds stands) fun c behind => ?_
    have empty : (SExpr.bareFrom [] rest).1 = [] ↔
        String.ofList (SExpr.bareFrom [] rest).1 = "" := by simp
    rw [bare?_eq, Outcome.map_ok]
    simp only [empty]
    exact .pure behind _

end Atoms

/-- Wherever they begin, the steps come to what the production does. -/
def Follows {α : Type} (text : String) (reading : Reading α) (production : Production α) : Prop :=
  ∀ c rest, c.At text rest → Meets text c reading (production rest)

private theorem Follows.meets {α : Type} {text : String} {reading : Reading α}
    {production : Production α}
    (follows : Follows text reading production) {c : ByteCursor} {rest : List TextUnit}
    {o : Outcome α} (h : production rest = o) (stands : c.At text rest) : Meets text c reading o :=
  h ▸ follows c rest stands

private theorem closeList_of_not_closing {rest : List TextUnit} (notClosing : peek? rest ≠ some ')')
    (items : List Datum) :
    closeList (.ok items rest) = .error (.missingClosing (peek? rest)) rest := by
  unfold closeList
  split
  · rename_i ok_eq
    cases ok_eq
    exact absurd rfl notClosing
  · rename_i ok_eq
    cases ok_eq
    rfl
  · rename_i error_eq
    cases error_eq

section Expressions

variable {text : String} {rest : List TextUnit} {c : ByteCursor} {depth lower : UInt32}
  (level : predecessor? depth = some lower) {inner : UInt32 → Reading (Option Datum)}
  {production : Production (Option Datum)} (reads : ReadsExpressions production)
  (follows : Follows text (inner lower) production)

include level reads follows in
private theorem itemsFrom_meets {units : List TextUnit} {o : Outcome (List Datum)}
    (items : ItemRun production units o) (taken : List Datum) {rounds : Nat}
    (enough : units.length < rounds) (stands : c.At text units) :
    Meets text c (itemsFrom inner depth rounds taken) (o.map (taken.reverse ++ ·)) := by
  induction items generalizing c taken rounds with
  | @stop units rest absent =>
    obtain ⟨rounds, rfl⟩ := Nat.exists_eq_succ_of_ne_zero (Nat.ne_zero_of_lt enough)
    rw [itemsFrom, Outcome.map_ok, List.append_nil]
    refine .check level ?_
    exact .bind (follows.meets absent stands) fun c behind => .pure behind _
  | @fail units rest fault fails =>
    obtain ⟨rounds, rfl⟩ := Nat.exists_eq_succ_of_ne_zero (Nat.ne_zero_of_lt enough)
    rw [itemsFrom, Outcome.map_error]
    refine .check level ?_
    exact .bind_error (follows.meets fails stands)
  | @item units mid d o first others ih =>
    obtain ⟨rounds, rfl⟩ := Nat.exists_eq_succ_of_ne_zero (Nat.ne_zero_of_lt enough)
    have shorter := reads.progress units d mid first
    rw [itemsFrom]
    refine .check level ?_
    refine .bind (follows.meets first stands) fun c behind => ?_
    have goesOn := ih (d :: taken) (Nat.lt_of_lt_of_le shorter (Nat.le_of_lt_succ enough)) behind
    cases o <;> simpa using goesOn

variable (short : text.length ≤ UInt32.size - 2)
include short

private theorem wholeMark_run {u : TextUnit} {after : List TextUnit} {mark sign : QuoteMark}
    (marked : mark? (u :: after) = some (mark, rest))
    (begins : QuoteMark.ofChar? u.first = some sign) (stands : c.At text after) :
    ∃ c', (wholeMark sign).run c = some (mark, c') ∧ c'.At text rest := by
  rw [mark?_cons, begins] at marked
  split at marked
  · cases marked
  · rename_i sign_eq
    cases sign_eq
    cases marked
    obtain ⟨c', next_run, behind⟩ := stands.next_run short
    exact ⟨c', by simp [wholeMark, stands.peek_run, peek?, next_run], behind⟩
  · rename_i sign_eq alone
    cases sign_eq
    cases marked
    refine ⟨c, ?_, stands⟩
    by_cases comma : mark = .unquote
    · have noSign : peek? rest ≠ some '@' := by
        intro seen
        obtain ⟨more, rest_eq⟩ := eq_cons_of_peek? seen (by decide)
        exact alone more rest_eq comma
      simp [wholeMark, stands.peek_run, comma, noSign]
    · simp [wholeMark, comma]

include level reads follows

private theorem list_meets {content : List TextUnit} {o : Outcome (List Datum)}
    (items : ItemRun production content o) (stands : c.At text (.char '(' :: content)) :
    Meets text c (list inner depth) (closeList o) := by
  rw [list]
  refine .peek stands ?_
  rw [if_pos (show peek? (.char '(' :: content) = some '(' from rfl),
    if_neg (ne_zero_of_predecessor? level)]
  refine .step (stands.next_run short) fun c behind => .step_of_run (rounds_run c) ?_
  have within := itemsFrom_meets level reads follows items [] behind.length_lt_rounds behind
  cases o with
  | error fault rest => exact within.bind_error
  | ok items rest =>
    refine within.bind fun c behind => .peek behind ?_
    by_cases closing : peek? rest = some ')'
    · obtain ⟨rest, rfl⟩ := eq_cons_of_peek? closing (by decide)
      rw [if_pos closing]
      exact .step (behind.next_run short) fun c behind => .pure behind _
    · rw [if_neg closing, closeList_of_not_closing closing]
      exact .peek behind (.fail behind _)

private theorem marked_meets {sign mark : QuoteMark} {u : TextUnit} {after : List TextUnit}
    (front : mark? (u :: after) = some (mark, rest))
    (begins : QuoteMark.ofChar? u.first = some sign) (stands : c.At text (u :: after)) :
    Meets text c (marked inner sign depth) (markedWith production mark rest) := by
  rw [marked, if_neg (ne_zero_of_predecessor? level)]
  refine .step (stands.next_run short) fun c behind => ?_
  refine .step (wholeMark_run short front begins behind) fun c behind => ?_
  refine .step (behind.skipBlanks_run short) fun c behind => ?_
  refine .check level ?_
  have blanks := reads.blanks rest
  unfold markedWith
  split
  · rename_i inner_eq
    exact .bind (follows.meets (blanks.trans inner_eq) behind) fun c behind => .pure behind _
  · rename_i inner_eq
    refine .bind (follows.meets (blanks.trans inner_eq) behind) fun c behind => ?_
    exact .peek behind (.fail behind _)
  · rename_i inner_eq
    exact .bind_error (follows.meets (blanks.trans inner_eq) behind)

end Expressions

section Levels

variable {text : String} (short : text.length ≤ UInt32.size - 2) {options : WordOptions}
  {inner : UInt32 → Reading (Option Datum)} {depth : UInt32} {rest : List TextUnit}
  {c : ByteCursor}

private theorem marked_tooDeep (sign : QuoteMark) (stands : c.At text rest) :
    Meets text c (marked inner sign 0) (.error .tooDeep rest) :=
  .fail stands _

private theorem list_tooDeep {content : List TextUnit} (stands : c.At text (.char '(' :: content)) :
    Meets text c (list inner 0) (.error .tooDeep (.char '(' :: content)) :=
  .peek stands (.fail stands _)

private theorem list_of_not_opening (stands : c.At text rest) (notOpening : peek? rest ≠ some '(') :
    Meets text c (list inner depth) (.error (.missingOpening (peek? rest)) rest) := by
  refine .peek stands ?_
  rw [if_neg notOpening]
  exact .peek stands (.fail stands _)

private theorem unmarked?_of_opening {content : List TextUnit}
    (stands : c.At text (.char '(' :: content))
    {o : Outcome Datum} (meets : Meets text c (list inner depth) o) :
    Meets text c (unmarked? options inner depth) (o.map some) :=
  .peek stands (meets.map some)

theorem textEnd_meets (stands : c.At text rest) : Meets text c textEnd (SExpr.textEnd rest) := by
  refine .peek stands ?_
  cases rest with
  | nil => exact .pure stands ()
  | cons u rest => exact .fail stands _

include short

private theorem unmarked?_of_not_opening (stands : c.At text rest)
    (notOpening : peek? rest ≠ some '(') :
    Meets text c (unmarked? options inner depth)
      ((SExpr.atom? options.options rest).map (Option.map Datum.atom)) := by
  refine .peek stands ?_
  rw [if_neg notOpening]
  exact .map (atom?_meets short options stands) (Option.map Datum.atom)

private theorem exprWith_of_unmarked (stands : c.At text rest)
    (unmarked : mark? (SExpr.skipBlanks rest) = none) {o : Outcome (Option Datum)}
    (meets : ∀ c, c.At text (SExpr.skipBlanks rest) →
      Meets text c (unmarked? options inner depth) o) :
    Meets text c (exprWith options inner depth) o.skipBlanks := by
  refine .step (stands.skipBlanks_run short) fun c behind => .peek behind ?_
  have noSign : (peek? (SExpr.skipBlanks rest)).bind QuoteMark.ofChar? = none := by
    cases front : SExpr.skipBlanks rest with
    | nil => rfl
    | cons u after => exact mark?_cons_eq_none_iff.1 (front ▸ unmarked)
  rw [noSign]
  exact (meets c behind).skipBlanks short

private theorem exprWith_of_sign (stands : c.At text rest) {u : TextUnit} {after : List TextUnit}
    (front : SExpr.skipBlanks rest = u :: after) {sign : QuoteMark}
    (begins : QuoteMark.ofChar? u.first = some sign) {o : Outcome Datum}
    (meets : ∀ c, c.At text (u :: after) → Meets text c (marked inner sign depth) o) :
    Meets text c (exprWith options inner depth) (o.map some) := by
  refine .step (stands.skipBlanks_run short) fun c behind => .peek behind ?_
  rw [front] at behind ⊢
  rw [show (peek? (u :: after)).bind QuoteMark.ofChar? = some sign from begins]
  exact (meets c behind).map some

private theorem exprWith_follows {below : Option (Production (Option Datum))}
    (bottom : below = none → depth = 0)
    (reads : ∀ production ∈ below, ReadsExpressions production)
    (follows : ∀ production ∈ below, ∃ lower, predecessor? depth = some lower ∧
      Follows text (inner lower) production) :
    Follows text (exprWith options inner depth) (SExpr.exprWith options.options below) := by
  intro c rest stands
  have step := (exprWith_eq_iff reads).1
    (rfl : SExpr.exprWith options.options below rest = _)
  generalize SExpr.exprWith options.options below rest = o at step
  cases step with
  | @limit _ after u front begins =>
    obtain rfl := bottom rfl
    cases sign_eq : QuoteMark.ofChar? u.first with
    | some sign =>
      exact exprWith_of_sign short stands front sign_eq fun c behind => marked_tooDeep sign behind
    | none =>
      have opening : u.first = '(' := by simpa [beginsLevel, sign_eq] using begins
      obtain rfl := eq_char_of_first opening (by decide)
      refine exprWith_of_unmarked (o := .error .tooDeep _) short stands (by rw [front]; rfl)
        fun c behind => ?_
      rw [front] at behind
      exact unmarked?_of_opening behind (list_tooDeep behind)
  | @marked production _ left mark front =>
    obtain ⟨lower, level, follows⟩ := follows production rfl
    cases units_eq : SExpr.skipBlanks rest with
    | nil =>
      rw [units_eq] at front
      cases front
    | cons u after =>
      rw [units_eq] at front
      cases sign_eq : QuoteMark.ofChar? u.first with
      | none =>
        rw [mark?_cons_eq_none_iff.2 sign_eq] at front
        cases front
      | some sign =>
        exact exprWith_of_sign short stands units_eq sign_eq fun c behind =>
          marked_meets level (reads production rfl) follows short front sign_eq behind
  | @list production _ content o front items =>
    obtain ⟨lower, level, follows⟩ := follows production rfl
    refine exprWith_of_unmarked short stands (by rw [front]; rfl) fun c behind => ?_
    rw [front] at behind
    exact unmarked?_of_opening behind
      (list_meets level (reads production rfl) follows short items behind)
  | atom unmarked notOpening =>
    exact exprWith_of_unmarked short stands unmarked fun c behind =>
      unmarked?_of_not_opening short behind notOpening

/-- A word of levels is counted down as the number of them is. -/
theorem expr?_follows {levels n : Nat} (depth_eq : depth.toNat = n) (enough : n ≤ levels) :
    Follows text (expr? options levels depth) (exprAt options.options n) := by
  induction n generalizing levels depth with
  | zero =>
    have bottom : depth = 0 := UInt32.toNat_inj.1 depth_eq
    cases levels <;> exact exprWith_follows short (fun _ => bottom) (by simp) (by simp)
  | succ n ih =>
    obtain ⟨levels, rfl⟩ := Nat.exists_eq_succ_of_ne_zero (Nat.ne_zero_of_lt enough)
    obtain ⟨lower, level, lower_eq⟩ := predecessor?_eq depth_eq
    have reads := exprAt_readsExpressions options.options n
    have follows := ih lower_eq (Nat.le_of_succ_le_succ enough)
    exact exprWith_follows short (by simp) (by simpa using reads)
      (by simpa using ⟨lower, level, follows⟩)

private theorem list_follows {levels n : Nat} (depth_eq : depth.toNat = n) (enough : n ≤ levels) :
    Follows text (list (expr? options levels) depth) (listAt options.options n) := by
  intro c rest stands
  by_cases opening : peek? rest = some '('
  · obtain ⟨content, rfl⟩ := eq_cons_of_peek? opening (by decide)
    cases n with
    | zero =>
      obtain rfl : depth = 0 := UInt32.toNat_inj.1 depth_eq
      exact list_tooDeep stands
    | succ n =>
      obtain ⟨lower, level, lower_eq⟩ := predecessor?_eq depth_eq
      have reads := exprAt_readsExpressions options.options n
      have follows : Follows text (expr? options levels lower) (exprAt options.options n) :=
        expr?_follows short lower_eq (Nat.le_of_succ_le enough)
      obtain ⟨o, items⟩ := exists_itemRun reads content
      rw [listAt, items.listWith_eq reads]
      exact list_meets level reads follows short items stands
  · have missing : listAt options.options n rest = .error (.missingOpening (peek? rest)) rest := by
      cases n <;> exact listWith_of_not_opening opening _
    rw [missing]
    exact list_of_not_opening stands opening

theorem answer_follows (options : WordOptions) (request : Request) :
    Follows text (answer options request) (request.production options.options) := by
  cases request with
  | expr => exact expr?_follows short rfl (Nat.le_refl _)
  | list => exact list_follows short rfl (Nat.le_refl _)
  | atom => exact fun c rest stands => atom?_meets short options stands
  | literal => exact fun c rest stands => literal_meets short options stands
  | textEnd => exact fun c rest stands => textEnd_meets stands

end Levels

end Checked

end SExpr

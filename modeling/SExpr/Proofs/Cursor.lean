import SExpr.Proofs.Place
import Mathlib.Data.List.DropRight
import Mathlib.Data.List.TFAE

namespace SExpr

open TextUnit

section LineBreaks

def isBreak (c : Char) : Bool :=
  c == '\n' || c == '\r'

/-- The line breaks in a text. A carriage return and the line feed right behind it are one. -/
def lineBreaks : List Char → Nat
  | [] => 0
  | '\r' :: '\n' :: text => lineBreaks text + 1
  | c :: text => if isBreak c then lineBreaks text + 1 else lineBreaks text

def lastLine (text : List Char) : List Char :=
  text.rtakeWhile (!isBreak ·)

def Position.ofFront (front : List Char) : Position :=
  ⟨lineBreaks front, (lastLine front).length⟩

private theorem lineBreaks_cons {c : Char} {text : List Char}
    (h : c = '\r' → text.head? ≠ some '\n') :
    lineBreaks (c :: text) = if isBreak c then lineBreaks text + 1 else lineBreaks text := by
  rw [lineBreaks]
  rintro more rfl rfl
  exact h rfl rfl

private theorem lineBreaks_chars_append {u : TextUnit} {text : List Char}
    (h : u = .char '\r' → text.head? ≠ some '\n') :
    lineBreaks (u.chars ++ text) = if u.endsLine then lineBreaks text + 1 else lineBreaks text := by
  cases u with
  | crlf => rfl
  | char c => exact lineBreaks_cons fun hc => h (congrArg _ hc)

private theorem lastLine_concat_of_break {c : Char} (h : isBreak c) (text : List Char) :
    lastLine (text ++ [c]) = [] :=
  List.rtakeWhile_concat_neg _ _ _ (by simp [h])

private theorem lastLine_concat {c : Char} (h : isBreak c = false) (text : List Char) :
    lastLine (text ++ [c]) = lastLine text ++ [c] :=
  List.rtakeWhile_concat_pos _ _ _ (by simp [h])

private theorem Position.line_foldl_after {units : List TextUnit} (paired : Paired units)
    (p : Position) :
    (units.foldl after p).line = p.line + lineBreaks (join units) := by
  induction units generalizing p with
  | nil => rfl
  | cons u units ih =>
    have alone : u = .char '\r' → (join units).head? ≠ some '\n' := by
      rw [head?_join]
      rintro rfl feed
      cases units with
      | nil => cases feed
      | cons v units =>
        have first : v.first = '\n' := Option.some.inj feed
        exact paired.rel ⟨rfl, eq_char_of_first first (by decide)⟩
    rw [List.foldl_cons, ih (paired.suffix (List.suffix_cons u units)), join_cons,
      lineBreaks_chars_append alone, after]
    by_cases ends : u.endsLine
    · simp only [ends, if_true]
      omega
    · simp [ends]

private theorem Position.column_behind (units : List TextUnit) :
    (behind units).column = (lastLine (join units)).length := by
  induction units using List.reverseRecOn with
  | nil => rfl
  | append_singleton units u ih =>
    have step : behind (units ++ [u]) = (behind units).after u := List.foldl_append
    rw [step, join_append, join_cons, join_nil, List.append_nil, after]
    cases u with
    | crlf =>
      have last : join units ++ crlf.chars = (join units ++ ['\r']) ++ ['\n'] := by simp
      rw [last, lastLine_concat_of_break (by decide)]
      rfl
    | char c =>
      rw [show (char c).endsLine = isBreak c from rfl]
      by_cases ends : isBreak c
      · rw [if_pos ends, chars_char, lastLine_concat_of_break ends]
        rfl
      · rw [if_neg ends, chars_char, lastLine_concat (by simpa using ends), List.length_append,
          ← ih]
        rfl

/-- Where a text is cut between two of its units, the front alone says what the position is. -/
theorem Position.behind_eq_ofFront {units : List TextUnit} (paired : Paired units) :
    behind units = ofFront (join units) := by
  have line_eq := line_foldl_after paired start
  have column_eq := column_behind units
  rw [show start.line = 0 from rfl, Nat.zero_add] at line_eq
  unfold ofFront
  rw [← line_eq, ← column_eq]
  rfl

example : Position.ofFront "a\r\nb\r\r\n\ncd".toList = ⟨4, 2⟩ := by decide

end LineBreaks

namespace Cursor

/-- The cursor has passed over the units `before` of the text, and over no others. -/
structure HasPassed (text : String) (before : List TextUnit) (c : Cursor) : Prop where
  units : split text.toList = before ++ c.rest
  offset : c.offset = (String.ofList (join before)).utf8ByteSize
  position : c.position = Position.behind before

namespace HasPassed

variable {text : String} {before : List TextUnit} {c : Cursor}

theorem ofText (text : String) : (Cursor.ofText text).HasPassed text [] where
  units := rfl
  offset := rfl
  position := rfl

theorem next? (passed : c.HasPassed text before) {u : TextUnit} {next : Cursor}
    (h : c.next? = some (u, next)) : next.HasPassed text (before ++ [u]) := by
  obtain ⟨units, offset, position⟩ := c
  cases units with
  | nil => cases h
  | cons v units =>
    cases h
    have size_eq : (String.ofList u.chars).utf8ByteSize = u.utf8Size := by
      cases u with
      | char c => simp [utf8Size]
      | crlf => rfl
    constructor
    · rw [passed.units, List.append_assoc]
      rfl
    · rw [join_append, join_cons, join_nil, List.append_nil, String.ofList_append,
        String.utf8ByteSize_append, ← passed.offset, size_eq]
    · rw [Position.behind, List.foldl_append, ← Position.behind, ← passed.position]
      rfl

theorem skip (passed : c.HasPassed text before) (n : Nat) :
    (c.skip n).HasPassed text (before ++ c.rest.take n) := by
  induction n generalizing c before with
  | zero =>
    rw [List.take_zero, List.append_nil]
    exact passed
  | succ n ih =>
    rw [Cursor.skip]
    cases next_eq : c.next? with
    | none =>
      have nil : c.rest = [] := by
        cases rest_eq : c.rest with
        | nil => rfl
        | cons u rest => simp [next?_eq rest_eq] at next_eq
      simpa [nil] using passed
    | some next =>
      have goesOn := ih (passed.next? next_eq)
      rw [rest_eq_of_next? next_eq, List.take_succ_cons]
      rwa [List.append_assoc] at goesOn

theorem takeUntil (passed : c.HasPassed text before) (stop : Char → Bool) :
    (c.takeUntil stop).2.HasPassed text (before ++ (c.takeUntil stop).1) := by
  have taken := passed.skip (c.takeUntil stop).1.length
  rwa [← List.prefix_iff_eq_take.1 ⟨_, takeUntil_append stop c⟩] at taken

end HasPassed

/-- The cursor stands behind the front `before` of the text, and tells so. -/
structure StandsBehind (before text : String) (c : Cursor) : Prop where
  front : before.toList <+: text.toList
  /-- The front does not end between a carriage return and its line feed. -/
  whole : before.toList.getLast? = some '\r' → ¬before.toList ++ ['\n'] <+: text.toList
  offset : c.offset = before.utf8ByteSize
  line : c.position.line = lineBreaks before.toList
  column : c.position.column = (lastLine before.toList).length
  /-- Every way to ask whether the text is at its end has the same answer. -/
  ends : [c.peek? = none, c.next? = none, c.atEnd = true, c.offset = text.utf8ByteSize,
    before = text].TFAE

/-- The cursor stands behind `before`, and `left` is the rest of the text. -/
structure Divides (before left text : String) (c : Cursor) : Prop
    extends c.StandsBehind before text where
  text_eq : text = before ++ left
  rest_eq : c.rest = split left.toList

namespace HasPassed

variable {text : String} {before : List TextUnit} {c : Cursor}

theorem paired (passed : c.HasPassed text before) : Paired before ∧ Paired c.rest := by
  have paired := paired_split text.toList
  rw [passed.units] at paired
  exact ⟨paired.left_of_append, paired.right_of_append⟩

theorem split_rest (passed : c.HasPassed text before) :
    split (String.ofList (join c.rest)).toList = c.rest := by
  rw [String.toList_ofList, split_join passed.paired.2]

theorem toList_eq (passed : c.HasPassed text before) :
    text.toList = join before ++ join c.rest := by
  rw [← join_append, ← passed.units, join_split]

private theorem whole (passed : c.HasPassed text before)
    (last : (join before).getLast? = some '\r') :
    ¬join before ++ ['\n'] <+: text.toList := by
  rintro ⟨more, text_eq⟩
  rw [passed.toList_eq, List.append_assoc] at text_eq
  have feed : SExpr.peek? c.rest = some '\n' := by
    rw [← head?_join, ← List.append_cancel_left text_eq]
    rfl
  have paired := paired_split text.toList
  rw [passed.units] at paired
  cases before using List.reverseRecOn with
  | nil => cases last
  | append_singleton before u =>
    cases rest_eq : c.rest with
    | nil => simp [rest_eq, SExpr.peek?] at feed
    | cons v rest =>
      rw [rest_eq, List.append_assoc] at paired
      refine (paired.suffix (List.suffix_append before _)).rel ⟨?_, ?_⟩
      · cases u with
        | char c => simpa using last
        | crlf => simp at last
      · rw [rest_eq] at feed
        exact eq_char_of_first (Option.some.inj feed) (by decide)

private theorem tfae_ends (passed : c.HasPassed text before) :
    [c.peek? = none, c.next? = none, c.atEnd = true, c.offset = text.utf8ByteSize,
      String.ofList (join before) = text].TFAE := by
  have left_nil : String.ofList (join c.rest) = "" ↔ c.rest = [] := by
    cases c.rest with
    | nil => simp
    | cons u rest => simp [u.chars_ne_nil]
  have text_eq : text = String.ofList (join before) ++ String.ofList (join c.rest) := by
    rw [← String.ofList_append, ← passed.toList_eq, String.ofList_toList]
  have peek_none : c.peek? = none ↔ c.rest = [] := by simp [peek?, SExpr.peek?]
  have next_none : c.next? = none ↔ c.rest = [] := by
    cases rest_eq : c.rest with
    | nil => simp [Cursor.next?, rest_eq]
    | cons u rest => simp [next?_eq rest_eq]
  have atEnd : c.atEnd = true ↔ c.rest = [] := List.isEmpty_iff
  have offset_eq : c.offset = text.utf8ByteSize ↔ c.rest = [] := by
    rw [text_eq, String.utf8ByteSize_append, passed.offset, ← left_nil,
      ← String.utf8ByteSize_eq_zero_iff]
    omega
  have front_eq : String.ofList (join before) = text ↔ c.rest = [] := by
    rw [text_eq, ← left_nil, ← String.toList_inj, String.toList_append,
      List.self_eq_append_right, String.toList_eq_nil_iff]
  exact List.tfae_of_forall (c.rest = []) _
    (by simp [peek_none, next_none, atEnd, offset_eq, front_eq])

theorem standsBehind (passed : c.HasPassed text before) :
    c.StandsBehind (String.ofList (join before)) text := by
  have position_eq := passed.position.trans (Position.behind_eq_ofFront passed.paired.1)
  constructor
  · rw [String.toList_ofList, passed.toList_eq]
    exact List.prefix_append _ _
  · rw [String.toList_ofList]
    exact passed.whole
  · exact passed.offset
  · rw [position_eq, String.toList_ofList]
    rfl
  · rw [position_eq, String.toList_ofList]
    rfl
  · exact passed.tfae_ends

theorem divides (passed : c.HasPassed text before) :
    c.Divides (String.ofList (join before)) (String.ofList (join c.rest)) text where
  toStandsBehind := passed.standsBehind
  text_eq := by rw [← String.ofList_append, ← passed.toList_eq, String.ofList_toList]
  rest_eq := passed.split_rest.symm

end HasPassed

end Cursor

inductive Move where
  | next
  | takeUntil (stop : Char → Bool)
  | skipBlanks
  | save
  /-- Goes back to the cursor that was kept last, to the one before it, and so on. -/
  | restore (n : Nat)

/-- A cursor under way: the cursors that are kept, the last one first, and all that was taken or
skipped. -/
structure Walk where
  cursor : Cursor
  saved : List Cursor
  taken : List Char

namespace Walk

def ofText (text : String) : Walk :=
  ⟨.ofText text, [], []⟩

def forward (w : Walk) (units : List TextUnit) (cursor : Cursor) : Walk :=
  { w with cursor, taken := w.taken ++ join units }

def step (w : Walk) : Move → Walk
  | .next =>
    match w.cursor.next? with
    | none => w
    | some (u, cursor) => w.forward [u] cursor
  | .takeUntil stop => w.forward (w.cursor.takeUntil stop).1 (w.cursor.takeUntil stop).2
  | .skipBlanks => w.forward (w.cursor.takeUntil (!isBlank ·)).1 w.cursor.skipBlanks
  | .save => { w with saved := w.cursor :: w.saved }
  | .restore n =>
    match w.saved[n]? with
    | none => w
    | some cursor => { w with cursor }

def run (text : String) (moves : List Move) : Walk :=
  moves.foldl step (ofText text)

def Within (text : String) (w : Walk) : Prop :=
  ∀ c ∈ w.cursor :: w.saved, ∃ before, c.HasPassed text before

variable {text : String} {w : Walk}

private theorem step_forward {move : Move} (forward : ∀ n, move ≠ .restore n)
    {before : List TextUnit} (passed : w.cursor.HasPassed text before) :
    ∃ units, (w.step move).cursor.HasPassed text (before ++ units) ∧
      (w.step move).taken = w.taken ++ join units ∧ (w.step move).saved ⊆ w.cursor :: w.saved := by
  have stays : w.cursor.HasPassed text (before ++ []) ∧ w.taken = w.taken ++ join [] := by
    rw [List.append_nil, join_nil, List.append_nil]
    exact ⟨passed, rfl⟩
  have saved := List.subset_cons_self w.cursor w.saved
  cases move with
  | next =>
    cases next_eq : w.cursor.next? with
    | none =>
      have same : w.step .next = w := by simp [step, next_eq]
      rw [same]
      exact ⟨[], stays.1, stays.2, saved⟩
    | some next =>
      have same : w.step .next = w.forward [next.1] next.2 := by simp [step, next_eq]
      rw [same]
      exact ⟨[next.1], passed.next? next_eq, rfl, saved⟩
  | takeUntil stop => exact ⟨_, passed.takeUntil stop, rfl, saved⟩
  | skipBlanks => exact ⟨_, passed.takeUntil _, rfl, saved⟩
  | save => exact ⟨[], stays.1, stays.2, List.Subset.refl _⟩
  | restore n => exact absurd rfl (forward n)

private theorem Within.step (within : w.Within text) (move : Move) : (w.step move).Within text := by
  by_cases back : ∃ n, move = .restore n
  · obtain ⟨n, rfl⟩ := back
    have kept : ∀ c ∈ w.saved, ∃ before, c.HasPassed text before :=
      fun c h => within c (List.mem_cons_of_mem _ h)
    cases saved_eq : w.saved[n]? with
    | none =>
      have same : w.step (.restore n) = w := by simp [Walk.step, saved_eq]
      rwa [same]
    | some cursor =>
      have same : w.step (.restore n) = { w with cursor } := by simp [Walk.step, saved_eq]
      rw [same]
      exact List.forall_mem_cons.2 ⟨kept cursor (List.mem_of_getElem? saved_eq), kept⟩
  · obtain ⟨before, passed⟩ := within w.cursor (List.mem_cons_self ..)
    obtain ⟨units, goesOn, -, saved⟩ := step_forward (by simpa using back) passed
    exact List.forall_mem_cons.2 ⟨⟨_, goesOn⟩, fun c kept => within c (saved kept)⟩

private theorem run_concat (text : String) (moves : List Move) (move : Move) :
    run text (moves ++ [move]) = (run text moves).step move :=
  List.foldl_append

private theorem within_run (text : String) (moves : List Move) : (run text moves).Within text := by
  induction moves using List.reverseRecOn with
  | nil =>
    intro c start
    obtain rfl := List.mem_singleton.1 start
    exact ⟨[], .ofText text⟩
  | append_singleton moves move ih =>
    rw [run_concat]
    exact ih.step move

private theorem taken_run {moves : List Move} (forward : ∀ n, .restore n ∉ moves) :
    ∃ before, (run text moves).cursor.HasPassed text before ∧
      (run text moves).taken = join before := by
  induction moves using List.reverseRecOn with
  | nil => exact ⟨[], .ofText text, rfl⟩
  | append_singleton moves move ih =>
    simp only [List.mem_append, List.mem_singleton, not_or] at forward
    obtain ⟨before, passed, taken⟩ := ih fun n => (forward n).1
    obtain ⟨units, goesOn, taken', -⟩ := step_forward (fun n => Ne.symm (forward n).2) passed
    rw [run_concat]
    exact ⟨_, goesOn, by rw [taken', taken, join_append]⟩

/-- Wherever moves take a cursor, it tells by what front of the text it stands. If none of them
goes back, that front is all that they have taken and skipped. -/
theorem cursor_run_standsBehind (text : String) (moves : List Move) :
    ∃ before, (run text moves).cursor.StandsBehind before text ∧
      ((∀ n, .restore n ∉ moves) → (run text moves).taken = before.toList) := by
  obtain ⟨before, passed⟩ := within_run text moves _ (List.mem_cons_self ..)
  refine ⟨String.ofList (join before), passed.standsBehind, fun forward => ?_⟩
  obtain ⟨before', passed', taken⟩ := @taken_run text moves forward
  have same : before' = before := List.append_cancel_right (passed'.units.symm.trans passed.units)
  rw [taken, same, String.toList_ofList]

end Walk

end SExpr

import SExpr.Proofs.Course
import SExpr.Proofs.Progress

/-!
# A cursor in machine words

Every part that is taken of the text is checked, and so is every word that is counted up or down: a
step comes to nothing where one of these fails.
-/

namespace SExpr

section Slices

/-- The part of `text` from one byte offset to another. There is none unless the offsets are in the
text, in this order, and neither is inside a character. -/
def slice? (text : String) (start stop : Nat) : Option String := do
  let first ← text.pos? ⟨start⟩
  let last ← text.pos? ⟨stop⟩
  let part ← text.slice? first last
  return part.copy

private theorem pos?_eq_some_iff {text : String} {offset : Nat} {p : text.Pos} :
    text.pos? ⟨offset⟩ = some p ↔ p.offset.byteIdx = offset := by
  unfold String.pos? String.Slice.pos?
  constructor
  · intro h
    obtain ⟨q, q_eq, rfl⟩ := Option.map_eq_some_iff.1 h
    split at q_eq
    · cases q_eq
      rfl
    · cases q_eq
  · rintro rfl
    rw [dif_pos (by simpa using p.isValid.toSlice)]
    rfl

private theorem exists_splits {text before behind : String} (text_eq : text = before ++ behind) :
    ∃ p : text.Pos, p.offset.byteIdx = before.utf8ByteSize ∧ p.Splits before behind := by
  subst text_eq
  exact ⟨_, rfl, String.Pos.splits_append_rawEndPos⟩

private theorem slice?_eq_some_iff {text part : String} {start stop : Nat} :
    slice? text start stop = some part ↔
      ∃ before behind, text = before ++ part ++ behind ∧ start = before.utf8ByteSize ∧
        stop = (before ++ part).utf8ByteSize := by
  have step : slice? text start stop = some part ↔
      ∃ first, text.pos? ⟨start⟩ = some first ∧ ∃ last, text.pos? ⟨stop⟩ = some last ∧
        ∃ h, (text.slice first last h).copy = part := by
    simp [slice?, String.slice?, Option.bind_eq_some_iff]
  simp only [step, pos?_eq_some_iff, String.copy_slice_eq_iff_splits]
  constructor
  · rintro ⟨first, rfl, last, rfl, before, behind, splits, splits'⟩
    exact ⟨before, behind, splits'.eq_append, congrArg _ splits.offset_eq_rawEndPos,
      congrArg _ splits'.offset_eq_rawEndPos⟩
  · rintro ⟨before, behind, text_eq, rfl, rfl⟩
    obtain ⟨first, start_eq, splits⟩ := exists_splits (text_eq.trans (String.append_assoc ..))
    obtain ⟨last, stop_eq, splits'⟩ := exists_splits text_eq
    exact ⟨first, start_eq, last, stop_eq, before, behind, splits, splits'⟩

example : slice? "aäb" 1 3 = some "ä" ∧ slice? "aäb" 1 2 = none ∧ slice? "aäb" 3 5 = none := by
  decide +kernel

end Slices

section Words

/-- The word after `w`; `none` if it would overflow. -/
def successor? (w : UInt32) : Option UInt32 :=
  if w.toNat + 1 < UInt32.size then some (w + 1) else none

def predecessor? (w : UInt32) : Option UInt32 :=
  if w = 0 then none else some (w - 1)

theorem successor?_eq {w : UInt32} (h : w.toNat + 1 < UInt32.size) :
    ∃ next, successor? w = some next ∧ next.toNat = w.toNat + 1 := by
  refine ⟨w + 1, if_pos h, ?_⟩
  rw [UInt32.toNat_add]
  exact Nat.mod_eq_of_lt h

theorem ne_zero_of_predecessor? {w lower : UInt32} (h : predecessor? w = some lower) : w ≠ 0 := by
  rintro rfl
  cases h

theorem predecessor?_eq {w : UInt32} {n : Nat} (h : w.toNat = n + 1) :
    ∃ lower, predecessor? w = some lower ∧ lower.toNat = n := by
  have positive : w ≠ 0 := by
    rintro rfl
    cases h
  refine ⟨w - 1, if_neg positive, ?_⟩
  rw [UInt32.toNat_sub_of_le _ _ (UInt32.le_iff_toNat_le.2 (by simp [h])), h]
  rfl

example : successor? 4294967294 = some 4294967295 ∧ successor? 4294967295 = none ∧
    predecessor? 0 = none := by
  decide

end Words

structure Place where
  line : UInt32
  column : UInt32

namespace Place

def position (p : Place) : Position :=
  ⟨p.line.toNat, p.column.toNat⟩

def newline? (p : Place) : Option Place :=
  (successor? p.line).map fun line => ⟨line, 0⟩

def onward? (p : Place) : Option Place :=
  (successor? p.column).map fun column => ⟨p.line, column⟩

def lineNumber? (p : Place) : Option UInt32 := successor? p.line

def columnNumber? (p : Place) : Option UInt32 := successor? p.column

def render? (p : Place) : Option String := do
  let line ← p.lineNumber?
  let column ← p.columnNumber?
  return s!"line: {line} col: {column}"

/-- Whether line and column are so small together that either can be counted up by one. -/
def Countable (p : Place) : Prop :=
  p.line.toNat + p.column.toNat + 1 < UInt32.size

namespace Countable

variable {p : Place} (countable : p.Countable)
include countable

private theorem newline?_eq :
    ∃ next, p.newline? = some next ∧ next.position = ⟨p.position.line + 1, 0⟩ := by
  obtain ⟨line, line_eq, toNat_eq⟩ := successor?_eq (w := p.line)
    (Nat.lt_of_le_of_lt (by omega) countable)
  exact ⟨⟨line, 0⟩, by simp [newline?, line_eq], by simp [position, toNat_eq]⟩

private theorem onward?_eq :
    ∃ next, p.onward? = some next ∧
      next.position = ⟨p.position.line, p.position.column + 1⟩ := by
  obtain ⟨column, column_eq, toNat_eq⟩ := successor?_eq (w := p.column)
    (Nat.lt_of_le_of_lt (by omega) countable)
  exact ⟨⟨p.line, column⟩, by simp [onward?, column_eq], by simp [position, toNat_eq]⟩

end Countable

end Place

private theorem Position.line_add_column_foldl (units : List TextUnit) (p : Position) :
    (units.foldl after p).line + (units.foldl after p).column ≤
      p.line + p.column + units.length := by
  induction units generalizing p with
  | nil => exact Nat.le_refl _
  | cons u units ih =>
    have step : (p.after u).line + (p.after u).column ≤ p.line + p.column + 1 := by
      unfold after
      split <;> simp only <;> omega
    have goesOn := ih (p.after u)
    rw [List.foldl_cons, List.length_cons]
    omega

/-- Line and column together are no more than the characters that were passed over. -/
theorem Cursor.HasPassed.line_add_column_le {text : String} {before : List TextUnit} {c : Cursor}
    (passed : c.HasPassed text before) :
    c.position.line + c.position.column ≤ (TextUnit.join before).length := by
  have units := Position.line_add_column_foldl before .start
  rw [← Position.behind, ← passed.position] at units
  exact Nat.le_trans (by simpa [Position.start] using units) (length_le_join before)

private theorem Cursor.HasPassed.length_eq {text : String} {before : List TextUnit} {c : Cursor}
    (passed : c.HasPassed text before) :
    text.length = (TextUnit.join before).length + (TextUnit.join c.rest).length := by
  rw [← List.length_append, ← passed.toList_eq, String.length_toList]

/-- A place in the whole `text`, in bytes and in words. -/
structure ByteCursor where
  text : String
  offset : Nat
  place : Place

/-- It comes to nothing where a check fails, or where a loop is not at its end after its rounds. -/
abbrev Step := StateT ByteCursor Option

namespace ByteCursor

def ofText (text : String) : ByteCursor :=
  ⟨text, 0, ⟨0, 0⟩⟩

def peek : Step (Option Char) := do
  let c ← get
  let rest ← slice? c.text c.offset c.text.utf8ByteSize
  return rest.toList.head?

/-- Moves over bytes of the text without counting them. -/
def pass (bytes : Nat) : Step Unit :=
  modify fun c => { c with offset := c.offset + bytes }

def goTo (count : Place → Option Place) : Step Unit := do
  let c ← get
  let place ← count c.place
  set { c with place }

def passUnit (first : Char) : Step Unit := do
  pass first.utf8Size
  if first = '\r' then
    if (← peek) = some '\n' then pass 1
    goTo Place.newline?
  else if first = '\n' then goTo Place.newline?
  else goTo Place.onward?

def next : Step (Option String) := do
  match ← peek with
  | none => return none
  | some first =>
    let start := (← get).offset
    passUnit first
    let c ← get
    return some (← slice? c.text start c.offset)

example : (next.run ⟨"ä", 1, ⟨0, 0⟩⟩).isNone ∧ (next.run ⟨"a", 0, ⟨0, 4294967295⟩⟩).isNone := by
  decide +kernel

/-- One round more than the text has characters, which is more than a loop over it needs. -/
def rounds : Step Nat := do
  return (← get).text.length + 1

/-- Passes over units up to the first whose first character satisfies `stop`. It comes to nothing if
that is not reached in so many rounds. -/
def passUntil (stop : Char → Bool) : (rounds : Nat) → Step Unit
  | 0 => failure
  | rounds + 1 => do
    match ← peek with
    | none => return
    | some first =>
      if stop first then return
      else
        let _ ← next
        passUntil stop rounds

def takeUntil (stop : Char → Bool) : Step String := do
  let start := (← get).offset
  passUntil stop (← rounds)
  let c ← get
  slice? c.text start c.offset

def skipBlanks : Step Unit := do
  let _ ← takeUntil (!isBlank ·)

section Runs

private theorem peek_run {c : ByteCursor} {front behind : List Char}
    (text_eq : c.text.toList = front ++ behind)
    (offset_eq : c.offset = (String.ofList front).utf8ByteSize) :
    peek.run c = some (behind.head?, c) := by
  have slice_eq : slice? c.text c.offset c.text.utf8ByteSize = some (String.ofList behind) := by
    have text_eq : c.text = String.ofList front ++ String.ofList behind := by
      rw [← String.ofList_append, ← text_eq, String.ofList_toList]
    refine slice?_eq_some_iff.2 ⟨String.ofList front, "", ?_, offset_eq, ?_⟩
    · rw [String.append_empty, text_eq]
    · rw [text_eq]
  simp [peek, slice_eq]

@[simp] theorem rounds_run (c : ByteCursor) : rounds.run c = some (c.text.length + 1, c) :=
  rfl

@[simp] theorem pass_run (bytes : Nat) (c : ByteCursor) :
    (pass bytes).run c = some ((), { c with offset := c.offset + bytes }) :=
  rfl

private theorem goTo_run {count : Place → Option Place} {place next : Place}
    (h : count place = some next) (text : String) (offset : Nat) :
    (goTo count).run ⟨text, offset, place⟩ = some ((), ⟨text, offset, next⟩) := by
  simp [goTo, h]

end Runs

open TextUnit

/-- The cursor has come to where only `rest` is left of the text. -/
structure At (text : String) (rest : List TextUnit) (c : ByteCursor) : Prop where
  text_eq : c.text = text
  passed : ∃ before, (Cursor.mk rest c.offset c.place.position).HasPassed text before

theorem at_ofText (text : String) : (ofText text).At text (split text.toList) where
  text_eq := rfl
  passed := ⟨[], .ofText text⟩

section At

variable {text : String} {u : TextUnit} {rest : List TextUnit} {c : ByteCursor}

theorem At.peek_run (stands : c.At text rest) : peek.run c = some (peek? rest, c) := by
  obtain ⟨rfl, before, passed⟩ := stands
  rw [← head?_join]
  exact ByteCursor.peek_run passed.toList_eq passed.offset

theorem At.length_lt_rounds (stands : c.At text rest) : rest.length < c.text.length + 1 := by
  obtain ⟨rfl, before, passed⟩ := stands
  have units : rest.length ≤ (join rest).length := length_le_join rest
  have length_eq : c.text.length = (join before).length + (join rest).length := passed.length_eq
  omega

private theorem At.peek_behind_first (stands : c.At text (u :: rest)) {first : Char}
    {behind : List Char} (chars_eq : u.chars = first :: behind) :
    peek.run ⟨c.text, c.offset + first.utf8Size, c.place⟩ =
      some ((behind ++ join rest).head?, ⟨c.text, c.offset + first.utf8Size, c.place⟩) := by
  obtain ⟨rfl, before, passed⟩ := stands
  have text_eq : c.text.toList = (join before ++ [first]) ++ (behind ++ join rest) := by
    rw [passed.toList_eq, join_cons, chars_eq]
    simp
  refine ByteCursor.peek_run text_eq ?_
  rw [String.ofList_append, String.utf8ByteSize_append, ← passed.offset]
  simp

theorem At.next_run_nil (stands : c.At text []) : next.run c = some (none, c) := by
  simp [next, stands.peek_run, peek?]

private theorem At.slice?_eq {c' : ByteCursor} {units : List TextUnit}
    (stands : c.At text (units ++ rest)) (behind : c'.At text rest) :
    slice? text c.offset c'.offset = some (String.ofList (join units)) := by
  obtain ⟨-, before, passed⟩ := stands
  obtain ⟨-, before', passed'⟩ := behind
  obtain rfl : before' = before ++ units := by
    have units_eq := passed'.units.symm.trans passed.units
    rw [← List.append_assoc] at units_eq
    exact List.append_cancel_right units_eq
  have text_eq := passed'.toList_eq
  have offset_eq := passed'.offset
  rw [join_append] at text_eq offset_eq
  refine slice?_eq_some_iff.2
    ⟨String.ofList (join before), String.ofList (join rest), ?_, passed.offset, ?_⟩
  · rw [← String.ofList_append, ← String.ofList_append, ← text_eq, String.ofList_toList]
  · rwa [← String.ofList_append]

variable (short : text.length ≤ UInt32.size - 2)
include short

theorem At.countable (stands : c.At text rest) : c.place.Countable := by
  obtain ⟨rfl, before, passed⟩ := stands
  have counted : c.place.line.toNat + c.place.column.toNat ≤ (join before).length :=
    passed.line_add_column_le
  have length_eq := passed.length_eq
  have room : 2 ≤ UInt32.size := by decide
  rw [Place.Countable]
  omega

/-- A unit takes the place on as it takes the position on. -/
theorem At.passUnit_run (stands : c.At text (u :: rest)) :
    ∃ place, (passUnit u.first).run c = some ((), ⟨c.text, c.offset + u.utf8Size, place⟩) ∧
      place.position = c.place.position.after u := by
  obtain ⟨line, line_eq, line_position⟩ := (stands.countable short).newline?_eq
  obtain ⟨column, column_eq, column_position⟩ := (stands.countable short).onward?_eq
  cases u with
  | crlf =>
    have feed := stands.peek_behind_first (rfl : crlf.chars = ['\r', '\n'])
    refine ⟨line, ?_, line_position⟩
    simp [passUnit, feed, goTo_run line_eq, show crlf.first = '\r' from rfl]
    rfl
  | char ch =>
    have behind := stands.peek_behind_first (chars_char ch)
    by_cases isReturn : ch = '\r'
    · subst isReturn
      have noFeed : peek? rest ≠ some '\n' := by
        intro feed
        obtain ⟨before, passed⟩ := stands.passed
        obtain ⟨more, rfl⟩ := eq_cons_of_peek? feed (by decide)
        exact passed.paired.2.rel ⟨rfl, rfl⟩
      refine ⟨line, ?_, line_position⟩
      simp [passUnit, behind, head?_join, noFeed, goTo_run line_eq, utf8Size]
    · by_cases isFeed : ch = '\n'
      · subst isFeed
        refine ⟨line, ?_, line_position⟩
        simp [passUnit, goTo_run line_eq, utf8Size]
      · refine ⟨column, ?_, ?_⟩
        · simp [passUnit, isReturn, isFeed, goTo_run column_eq, utf8Size]
        · simp [Position.after, endsLine, isReturn, isFeed, column_position]

theorem At.next_run (stands : c.At text (u :: rest)) :
    ∃ c', next.run c = some (some (String.ofList u.chars), c') ∧ c'.At text rest := by
  obtain ⟨place, pass_run, position_eq⟩ := stands.passUnit_run short
  have behind : (ByteCursor.mk c.text (c.offset + u.utf8Size) place).At text rest := by
    obtain ⟨rfl, before, passed⟩ := stands
    refine ⟨rfl, before ++ [u], ?_⟩
    rw [position_eq]
    exact passed.next? rfl
  have slice_eq : slice? text c.offset (c.offset + u.utf8Size) = some (String.ofList (join [u])) :=
    stands.slice?_eq behind
  rw [join_cons, join_nil, List.append_nil, ← stands.text_eq] at slice_eq
  refine ⟨_, ?_, behind⟩
  simp [next, stands.peek_run, peek?, pass_run, slice_eq]

private theorem At.passUntil_run (stop : Char → Bool) (stands : c.At text rest) {rounds : Nat}
    (enough : rest.length < rounds) :
    ∃ c', (passUntil stop rounds).run c = some ((), c') ∧
      c'.At text (rest.dropWhile (!stop ·.first)) := by
  induction rounds generalizing rest c with
  | zero => exact absurd enough (Nat.not_lt_zero _)
  | succ rounds ih =>
    rw [passUntil]
    cases rest with
    | nil => exact ⟨c, by simp [stands.peek_run, peek?], stands⟩
    | cons u rest =>
      cases stops : stop u.first with
      | true => exact ⟨c, by simp [stands.peek_run, peek?, stops], by simpa [stops] using stands⟩
      | false =>
        obtain ⟨_, next_run, behind⟩ := stands.next_run short
        obtain ⟨c', until_run, further⟩ := ih behind (Nat.lt_of_succ_lt_succ enough)
        refine ⟨c', ?_, ?_⟩
        · simp [stands.peek_run, peek?, stops, next_run, until_run]
        · simpa [stops] using further

theorem At.takeUntil_run (stop : Char → Bool) (stands : c.At text rest) :
    ∃ c', (takeUntil stop).run c =
        some (String.ofList (join (rest.takeWhile (!stop ·.first))), c') ∧
      c'.At text (rest.dropWhile (!stop ·.first)) := by
  obtain ⟨c', until_run, behind⟩ := stands.passUntil_run short stop stands.length_lt_rounds
  have whole : rest.takeWhile (!stop ·.first) ++ rest.dropWhile (!stop ·.first) = rest :=
    List.takeWhile_append_dropWhile
  have slice_eq := At.slice?_eq (by rwa [whole]) behind
  rw [← behind.text_eq] at slice_eq
  exact ⟨c', by simp [takeUntil, until_run, slice_eq], behind⟩

theorem At.skipBlanks_run (stands : c.At text rest) :
    ∃ c', skipBlanks.run c = some ((), c') ∧ c'.At text (SExpr.skipBlanks rest) := by
  obtain ⟨c', until_run, behind⟩ := stands.takeUntil_run short (!isBlank ·)
  refine ⟨c', by simp [skipBlanks, until_run], ?_⟩
  simpa [SExpr.skipBlanks] using behind

end At

end ByteCursor

end SExpr

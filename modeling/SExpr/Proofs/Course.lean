import SExpr.Proofs.Session

/-!
# Courses through a text

No course stops inside a unit, which is why position and offset never move one without the other.
-/

namespace SExpr

open TextUnit

inductive Call where
  | peek
  | next
  | takeUntil (stop : Char → Bool)
  | skipBlanks
  | ask (request : Request)

namespace Cursor

/-- The cursor after a call, whether it was answered with a value or with an error. -/
def call (options : ReadOptions) (c : Cursor) : Call → Cursor
  | .peek => c
  | .next =>
    match c.next? with
    | none => c
    | some (_, next) => next
  | .takeUntil stop => (c.takeUntil stop).2
  | .skipBlanks => c.skipBlanks
  | .ask request => ((Reader.mk options c).answer request).2.cursor

def course (options : ReadOptions) (calls : List Call) (c : Cursor) : Cursor :=
  calls.foldl (call options) c

namespace HasPassed

variable {text : String} {before before' : List TextUnit} {c c' : Cursor}

theorem call (passed : c.HasPassed text before) (options : ReadOptions) (call : Call) :
    ∃ units, (c.call options call).HasPassed text (before ++ units) := by
  have stays : c.HasPassed text (before ++ []) := by rwa [List.append_nil]
  cases call with
  | peek => exact ⟨[], stays⟩
  | next =>
    cases next_eq : c.next? with
    | none =>
      refine ⟨[], ?_⟩
      simpa [Cursor.call, next_eq] using stays
    | some next =>
      refine ⟨[next.1], ?_⟩
      simpa [Cursor.call, next_eq] using passed.next? next_eq
  | takeUntil stop => exact ⟨_, passed.takeUntil stop⟩
  | skipBlanks => exact ⟨_, passed.takeUntil _⟩
  | ask request =>
    obtain ⟨taken, -, goesOn⟩ :=
      (Reader.mk options c).run_hasPassed (request.production_forward options) passed
    refine ⟨taken, ?_⟩
    rwa [Cursor.call, Reader.answer_eq_run]

theorem course (passed : c.HasPassed text before) (options : ReadOptions) (calls : List Call) :
    ∃ before', (c.course options calls).HasPassed text before' := by
  induction calls generalizing c before with
  | nil => exact ⟨before, passed⟩
  | cons call calls ih =>
    obtain ⟨units, goesOn⟩ := passed.call options call
    exact ih goesOn

/-- The less is left of the text, the further on are offset and position. -/
theorem lt_of_shorter (passed : c.HasPassed text before) (passed' : c'.HasPassed text before')
    (shorter : c'.rest.length < c.rest.length) :
    c.offset < c'.offset ∧ c.position < c'.position := by
  -- Of two fronts of a text one is a front of the other, and the longer one leaves less.
  constructor
  · rcases List.append_eq_append_iff.1 (passed.units.symm.trans passed'.units) with
      ⟨more, rfl, rest_eq⟩ | ⟨more, rfl, rest_eq⟩
    · have nonempty : more ≠ [] := by
        rintro rfl
        rw [rest_eq, List.nil_append] at shorter
        exact Nat.lt_irrefl _ shorter
      obtain ⟨u, more, rfl⟩ := List.exists_cons_of_ne_nil nonempty
      have positive : (String.ofList (join (u :: more))).utf8ByteSize ≠ 0 := by
        simp [String.utf8ByteSize_eq_zero_iff, u.chars_ne_nil]
      rw [passed.offset, passed'.offset, join_append, String.ofList_append,
        String.utf8ByteSize_append]
      omega
    · rw [rest_eq, List.length_append] at shorter
      omega
  · rw [passed.position, passed'.position]
    exact Position.behind_lt_behind passed.units passed'.units shorter

theorem eq_of_length_eq (passed : c.HasPassed text before) (passed' : c'.HasPassed text before')
    (same : c.rest.length = c'.rest.length) : c.offset = c'.offset ∧ c.position = c'.position := by
  have before_eq : before = before' :=
    (List.append_inj' (passed.units.symm.trans passed'.units) same).1
  constructor
  · rw [passed.offset, passed'.offset, before_eq]
  · rw [passed.position, passed'.position, before_eq]

end HasPassed

end Cursor

private theorem Position.lt_asymm {p q : Position} (h : p < q) : ¬q < p := by
  rw [lt_def] at *
  omega

private theorem Cursor.HasPassed.compare {text : String} {before before' : List TextUnit}
    {c c' : Cursor} (passed : c.HasPassed text before) (passed' : c'.HasPassed text before') :
    (c.offset = c'.offset ↔ c.position = c'.position) ∧
      (c.offset < c'.offset ↔ c.position < c'.position) := by
  have irrefl : ∀ p : Position, ¬p < p := fun p h => Position.lt_asymm h h
  rcases Nat.lt_trichotomy c.rest.length c'.rest.length with longer | same | shorter
  · obtain ⟨offset, position⟩ := passed'.lt_of_shorter passed longer
    refine ⟨iff_of_false (Nat.ne_of_gt offset) ?_, iff_of_false (Nat.lt_asymm offset) ?_⟩
    · intro eq
      exact irrefl _ (eq ▸ position)
    · exact Position.lt_asymm position
  · obtain ⟨offset, position⟩ := passed.eq_of_length_eq passed' same
    refine ⟨iff_of_true offset position, iff_of_false (offset ▸ Nat.lt_irrefl _) ?_⟩
    exact position ▸ irrefl _
  · obtain ⟨offset, position⟩ := passed.lt_of_shorter passed' shorter
    refine ⟨iff_of_false (Nat.ne_of_lt offset) ?_, iff_of_true offset position⟩
    intro eq
    exact irrefl _ (eq ▸ position)

section Stops

def Cursor.stops (text : String) : List Cursor :=
  (List.range ((ofText text).rest.length + 1)).map fun n => (ofText text).skip n

def Position.offset? (text : String) (p : Position) : Option Nat :=
  ((Cursor.stops text).find? (·.position = p)).map Cursor.offset

example : Position.offset? "(ä\r\n b)" ⟨1, 1⟩ = some 6 := by decide

private theorem Cursor.hasPassed_of_mem_stops {text : String} {c : Cursor} (h : c ∈ stops text) :
    ∃ before, c.HasPassed text before := by
  obtain ⟨n, -, rfl⟩ := List.mem_map.1 h
  exact ⟨_, (HasPassed.ofText text).skip n⟩

private theorem Cursor.HasPassed.exists_stop {text : String} {before : List TextUnit} {c : Cursor}
    (passed : c.HasPassed text before) : ∃ stop ∈ stops text, stop.position = c.position := by
  have units : (Cursor.ofText text).rest = before ++ c.rest := passed.units
  refine ⟨(Cursor.ofText text).skip before.length,
    List.mem_map_of_mem (List.mem_range.2 ?_), ?_⟩
  · rw [units, List.length_append]
    omega
  · rw [passed.position, position_skip, units, List.take_left]
    rfl

private theorem Cursor.HasPassed.offset?_position {text : String} {before : List TextUnit}
    {c : Cursor} (passed : c.HasPassed text before) : c.position.offset? text = some c.offset := by
  obtain ⟨stop, member, same⟩ := passed.exists_stop
  cases found : (stops text).find? (·.position = c.position) with
  | none =>
    have absent := List.find?_eq_none.1 found stop member
    simp [same] at absent
  | some stop =>
    obtain ⟨before', passed'⟩ := hasPassed_of_mem_stops (List.mem_of_find?_eq_some found)
    have position_eq : stop.position = c.position := by
      simpa using List.find?_some found
    rw [Position.offset?, found, Option.map_some, (passed'.compare passed).1.2 position_eq]

private theorem Reader.offset?_of_error {α : Type} {production : Production α}
    (forward : Forward production) (r : Reader) {text : String} {before : List TextUnit}
    (passed : r.cursor.HasPassed text before) {e : ReadError}
    (failed : (r.run production).1 = .error e) :
    e.position.offset? text = some (r.run production).2.cursor.offset := by
  obtain ⟨taken, -, goesOn⟩ := r.run_hasPassed forward passed
  rw [((run_eq_error_iff forward r).1 failed).2]
  exact goesOn.offset?_position

end Stops

/-- Whatever courses are taken through one text, two places that they come to have equal offsets
exactly if they have equal positions, and are ordered alike by both. So the position in an error
tells the offset at which reading stopped. -/
theorem position_tells_offset (text : String) :
    (∀ options options' calls calls',
      let c := (Cursor.ofText text).course options calls
      let c' := (Cursor.ofText text).course options' calls'
      (c.offset = c'.offset ↔ c.position = c'.position) ∧
        (c.offset < c'.offset ↔ c.position < c'.position)) ∧
      (∀ options calls request e,
        let here := (Reader.mk options ((Cursor.ofText text).course options calls)).answer request
        here.1 = .error e → e.position.offset? text = some here.2.cursor.offset) ∧
      ∀ options e, read options text = .error e →
        e.position.offset? text =
          some ((Reader.ofText options text).run (document options)).2.cursor.offset := by
  refine ⟨?_, ?_, ?_⟩
  · intro options options' calls calls' c c'
    obtain ⟨before, passed⟩ := (Cursor.HasPassed.ofText text).course options calls
    obtain ⟨before', passed'⟩ := (Cursor.HasPassed.ofText text).course options' calls'
    exact passed.compare passed'
  · intro options calls request e here failed
    obtain ⟨before, passed⟩ := (Cursor.HasPassed.ofText text).course options calls
    simp only [here, Reader.answer_eq_run] at failed ⊢
    exact Reader.offset?_of_error (request.production_forward options) _ passed failed
  · intro options e failed
    exact Reader.offset?_of_error (document_forward options) _ (.ofText text) failed

theorem position_tells_offset_missingClosing :
    read ⟨" ", 2⟩ "(ä\r\n b" = .error ⟨.missingClosing none, ⟨1, 2⟩⟩ ∧
      Position.offset? "(ä\r\n b" ⟨1, 2⟩ =
        some ((Reader.ofText ⟨" ", 2⟩ "(ä\r\n b").run (document ⟨" ", 2⟩)).2.cursor.offset :=
  have failed : read ⟨" ", 2⟩ "(ä\r\n b" = .error ⟨.missingClosing none, ⟨1, 2⟩⟩ := by
    decide +kernel
  ⟨failed, (position_tells_offset "(ä\r\n b").2.2 _ _ failed⟩

end SExpr

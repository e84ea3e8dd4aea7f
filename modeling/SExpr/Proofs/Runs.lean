import SExpr.Proofs.Course
import SExpr.Proofs.Grammar.Scan

/-!
# Runs of characters

A cursor looks at the first character of each unit only. So it takes a line feed that it was to stop
at, if a carriage return is right in front of it that goes on.
-/

namespace SExpr

open TextUnit

section Units

variable {stop : Char → Bool}

/-- The front of a text that is made of whole units, none of them with a first character that stops
the run. Behind it the text goes on with `behind`. -/
inductive UnitRun (stop : Char → Bool) : (front behind : List Char) → Prop where
  | nil (behind : List Char) : UnitRun stop [] behind
  | pair {front behind : List Char} (goes : stop '\r' = false) (rest : UnitRun stop front behind) :
      UnitRun stop ('\r' :: '\n' :: front) behind
  | single {c : Char} {front behind : List Char} (goes : stop c = false)
      (alone : c = '\r' → (front ++ behind).head? ≠ some '\n') (rest : UnitRun stop front behind) :
      UnitRun stop (c :: front) behind

/-- Whether no run reaches further into the text than to the end of `front`. -/
structure LongestRun (stop : Char → Bool) (front behind : List Char) : Prop where
  run : UnitRun stop front behind
  longest : ∀ front' behind', UnitRun stop front' behind' →
    front' ++ behind' = front ++ behind → front'.length ≤ front.length

private theorem UnitRun.exists_units {front behind : List Char} (run : UnitRun stop front behind) :
    ∃ units, split (front ++ behind) = units ++ split behind ∧ join units = front ∧
      ∀ u ∈ units, stop u.first = false := by
  induction run with
  | nil behind => exact ⟨[], rfl, rfl, by simp⟩
  | pair goes rest ih =>
    obtain ⟨units, split_eq, join_eq, all⟩ := ih
    refine ⟨.crlf :: units, ?_, by simp [join_eq], List.forall_mem_cons.2 ⟨goes, all⟩⟩
    change _ = .crlf :: (units ++ split _)
    rw [← split_eq]
    exact split_chars_append (u := .crlf) (by simp)
  | @single c front behind goes alone rest ih =>
    obtain ⟨units, split_eq, join_eq, all⟩ := ih
    refine ⟨.char c :: units, ?_, by simp [join_eq], List.forall_mem_cons.2 ⟨goes, all⟩⟩
    change _ = .char c :: (units ++ split _)
    rw [← split_eq]
    exact split_chars_append (u := .char c) fun return_eq => alone (by simpa using return_eq)

private theorem unitRun_join {units : List TextUnit} {behind : List Char}
    (split_eq : split (join units ++ behind) = units ++ split behind)
    (goes : ∀ u ∈ units, stop u.first = false) : UnitRun stop (join units) behind := by
  induction units with
  | nil => exact .nil behind
  | cons u units ih =>
    obtain ⟨goes_first, goes⟩ := List.forall_mem_cons.1 goes
    rw [join_cons, List.append_assoc, List.cons_append] at split_eq
    obtain ⟨more, chars_eq, rest_eq⟩ := split_eq_cons split_eq
    obtain rfl := List.append_cancel_left chars_eq
    have rest := ih rest_eq.symm goes
    cases u with
    | crlf => exact .pair goes_first rest
    | char c =>
      refine .single goes_first ?_ rest
      rintro rfl
      exact head?_ne_of_split_return split_eq

private theorem exists_longestRun (stop : Char → Bool) (text : List Char) :
    ∃ behind, text = join ((split text).takeWhile (!stop ·.first)) ++ behind ∧
      (split text).dropWhile (!stop ·.first) = split behind ∧
        LongestRun stop (join ((split text).takeWhile (!stop ·.first))) behind := by
  have halves := (List.takeWhile_append_dropWhile (p := (!stop ·.first)) (l := split text)).symm
  obtain ⟨behind, text_eq, rest_eq⟩ := split_eq_append halves
  have split_eq : split text = (split text).takeWhile (!stop ·.first) ++ split behind := by
    rwa [← rest_eq]
  refine ⟨behind, text_eq, rest_eq, unitRun_join (text_eq ▸ split_eq) ?_, ?_⟩
  · intro u member
    simpa using List.all_eq_true.1 List.all_takeWhile u member
  · intro front' behind' run same
    obtain ⟨units', split_eq', rfl, goes⟩ := run.exists_units
    rw [same, ← text_eq] at split_eq'
    have taken : (split text).takeWhile (!stop ·.first) =
        units' ++ (split behind').takeWhile (!stop ·.first) := by
      rw [split_eq', List.takeWhile_append_of_pos (by simpa using goes)]
    rw [taken, join_append, List.length_append]
    omega

end Units

section Characters

variable {stop : Char → Bool} (together : stop '\r' = false → stop '\n' = false)
include together

private theorem join_takeWhile_split (text : List Char) :
    join ((split text).takeWhile (!stop ·.first)) = text.takeWhile (!stop ·) := by
  have chars_eq := congrArg join
    (List.takeWhile_append_dropWhile (p := (!stop ·.first)) (l := split text))
  rw [join_append, dropWhile_split together, join_split, join_split] at chars_eq
  exact List.append_cancel_right (chars_eq.trans List.takeWhile_append_dropWhile.symm)

end Characters

section Productions

theorem literalFrom_dropWhile (taken : List Char) (text : List TextUnit) :
    literalFrom taken text =
      literalFrom ((join (text.takeWhile (!stopsLiteral ·.first))).reverse ++ taken)
        (text.dropWhile (!stopsLiteral ·.first)) := by
  induction text generalizing taken with
  | nil => rfl
  | cons u text ih =>
    cases stops : stopsLiteral u.first with
    | true => simp [stops]
    | false =>
      rw [literalFrom_plain _ _ stops, ih]
      simp [stops]

theorem bareFrom_dropWhile (taken : List Char) (text : List TextUnit) :
    bareFrom taken text =
      bareFrom ((join (text.takeWhile (!stopsAtom ·.first))).reverse ++ taken)
        (text.dropWhile (!stopsAtom ·.first)) := by
  induction text generalizing taken with
  | nil => rfl
  | cons u text ih =>
    cases stops : stopsAtom u.first with
    | true => simp [stops]
    | false =>
      rw [bareFrom_plain _ _ stops, ih]
      simp [stops]

/-- What a literal comes to where its run of plain characters has ended. -/
def literalAtStop (taken rest : List Char) : Outcome (List Char) :=
  match rest with
  | '"' :: behind => .ok taken.reverse (split behind)
  | '\\' :: behind =>
    match split behind with
    | [] => .error .unterminatedLiteral []
    | escaped :: behind => literalFrom ((unescape escaped).reverse ++ taken) behind
  | _ => .error .unterminatedLiteral []

def bareAtStop (taken rest : List Char) : List Char × List TextUnit :=
  match rest with
  | '\\' :: behind =>
    match split behind with
    | [] => (taken.reverse, [])
    | escaped :: behind => bareFrom (escaped.chars.reverse ++ taken) behind
  | rest => (taken.reverse, split rest)

private theorem literalFrom_eq_atStop (taken : List Char) {rest : List Char}
    (stops : ∀ c ∈ rest.head?, stopsLiteral c) :
    literalFrom taken (split rest) = literalAtStop taken rest := by
  cases rest with
  | nil => exact literalFrom_nil taken
  | cons c behind =>
    have stop : c = '"' ∨ c = '\\' := by simpa [stopsLiteral] using stops c rfl
    rcases stop with rfl | rfl
    · rw [split_cons_of_ne (by decide), literalFrom_close]
      rfl
    · rw [split_cons_of_ne (by decide), literalAtStop]
      cases split behind with
      | nil => exact literalFrom_backslash taken
      | cons escaped behind => exact literalFrom_escape taken behind escaped

private theorem bareFrom_eq_atStop (taken : List Char) {rest : List Char}
    (stops : ∀ c ∈ rest.head?, stopsAtom c) :
    bareFrom taken (split rest) = bareAtStop taken rest := by
  unfold bareAtStop
  split
  · rename_i behind
    rw [split_cons_of_ne (by decide)]
    cases split behind with
    | nil => exact bareFrom_backslash taken
    | cons escaped behind => exact bareFrom_escape taken behind escaped
  · rename_i notBackslash
    cases rest with
    | nil => exact bareFrom_nil taken
    | cons c behind =>
      obtain ⟨u, more, split_eq, rfl⟩ := exists_split_cons c behind
      rw [split_eq]
      exact bareFrom_stop taken more (stops _ rfl) fun same => notBackslash behind (by rw [same])

end Productions

private theorem stop_of_head?_dropWhile {stop : Char → Bool} {text : List Char} :
    ∀ c ∈ (text.dropWhile (!stop ·)).head?, stop c := by
  intro c head
  have notGoing := List.head?_dropWhile_not (!stop ·) text
  rw [head] at notGoing
  simpa using notGoing

theorem stop_of_dropWhile {stop : Char → Bool} {text rest : List TextUnit} {u : TextUnit}
    (h : text.dropWhile (!stop ·.first) = u :: rest) : stop u.first := by
  have head := List.head?_dropWhile_not (!stop ·.first) text
  rw [h] at head
  simpa using head

namespace Cursor

theorem rest_takeUntil (stop : Char → Bool) (c : Cursor) :
    (c.takeUntil stop).2.rest = c.rest.dropWhile (!stop ·.first) := by
  have whole : (c.takeUntil stop).1 ++ c.rest.dropWhile (!stop ·.first) = c.rest :=
    List.takeWhile_append_dropWhile
  exact List.append_cancel_left ((takeUntil_append stop c).trans whole.symm)

private theorem stop_of_peek?_takeUntil {stop : Char → Bool} {c : Cursor} {char : Char}
    (next : (c.takeUntil stop).2.peek? = some char) : stop char := by
  rw [peek?, rest_takeUntil] at next
  obtain ⟨u, rest, rest_eq, rfl⟩ := exists_cons_of_peek? next
  exact stop_of_dropWhile rest_eq

example : ((ofText "a\r\nb\nc").takeUntil (· == '\n')).1 = [.char 'a', .crlf, .char 'b'] := by
  decide

end Cursor

/-- Where the runs of a reader stop: over blanks, in a literal and in a bare atom. -/
def readerStops : List (Char → Bool) :=
  [(!isBlank ·), stopsLiteral, stopsAtom]

private theorem feed_of_mem_readerStops {stop : Char → Bool} (h : stop ∈ readerStops)
    (goes : stop '\r' = false) : stop '\n' = false := by
  simp only [readerStops, List.mem_cons, List.not_mem_nil, or_false] at h
  rcases h with rfl | rfl | rfl
  · decide
  · decide
  · exact absurd goes (by decide)

/-- Wherever a cursor has come to, it takes the longest run of whole units that `stop` allows.
Unless `stop` holds of a line feed and not of a carriage return, that is the longest run of
characters. Where the runs of a reader end, a literal is closed or has a unit escaped, and a bare
atom has one escaped or ends. -/
theorem takeUntil_longest (text : String) (options : ReadOptions) (calls : List Call)
    (stop : Char → Bool) :
    let c := (Cursor.ofText text).course options calls
    let next := (c.takeUntil stop).2
    let taken := join (c.takeUntil stop).1
    ∃ before left behind : String, c.Divides before left text ∧
      next.Divides (before ++ .ofList taken) behind text ∧ left.toList = taken ++ behind.toList ∧
        LongestRun stop taken behind.toList ∧ (∀ char ∈ next.peek?, stop char) ∧
      ((stop '\r' = false → stop '\n' = false) → taken = left.toList.takeWhile (!stop ·)) ∧
      (∀ stop ∈ readerStops, stop '\r' = false → stop '\n' = false) ∧
      SExpr.skipBlanks c.rest = split (left.toList.dropWhile isBlank) ∧
      (∀ chars,
        literalFrom chars c.rest =
            literalFrom ((left.toList.takeWhile (!stopsLiteral ·)).reverse ++ chars)
              (split (left.toList.dropWhile (!stopsLiteral ·))) ∧
          bareFrom chars c.rest =
            bareFrom ((left.toList.takeWhile (!stopsAtom ·)).reverse ++ chars)
              (split (left.toList.dropWhile (!stopsAtom ·)))) ∧
      ∀ chars,
        literalFrom chars (split (left.toList.dropWhile (!stopsLiteral ·))) =
            literalAtStop chars (left.toList.dropWhile (!stopsLiteral ·)) ∧
          bareFrom chars (split (left.toList.dropWhile (!stopsAtom ·))) =
            bareAtStop chars (left.toList.dropWhile (!stopsAtom ·)) := by
  intro c next taken
  obtain ⟨before, passed⟩ := (Cursor.HasPassed.ofText text).course options calls
  have rest_eq : split (join c.rest) = c.rest := split_join passed.paired.2
  have goesOn := (passed.takeUntil stop).divides
  rw [join_append, String.ofList_append] at goesOn
  refine ⟨_, _, _, passed.divides, goesOn, ?_⟩
  simp only [String.toList_ofList]
  refine ⟨?_, ?_, ?_, ?_, ?_, ?_, ?_, ?_⟩
  · rw [← join_append, Cursor.takeUntil_append]
  · obtain ⟨behind, text_eq, behind_eq, longest⟩ := exists_longestRun stop (join c.rest)
    rw [rest_eq] at text_eq behind_eq longest
    rwa [Cursor.rest_takeUntil, behind_eq, join_split]
  · exact fun char => Cursor.stop_of_peek?_takeUntil
  · intro together
    rw [← join_takeWhile_split together, rest_eq]
    rfl
  · exact fun stop => feed_of_mem_readerStops
  · rw [← skipBlanks_split, rest_eq]
  · have literal_stop : stopsLiteral ∈ readerStops := by simp [readerStops]
    have atom_stop : stopsAtom ∈ readerStops := by simp [readerStops]
    intro chars
    constructor
    · rw [literalFrom_dropWhile, ← dropWhile_split (feed_of_mem_readerStops literal_stop),
        ← join_takeWhile_split (feed_of_mem_readerStops literal_stop), rest_eq]
    · rw [bareFrom_dropWhile, ← dropWhile_split (feed_of_mem_readerStops atom_stop),
        ← join_takeWhile_split (feed_of_mem_readerStops atom_stop), rest_eq]
  · intro chars
    exact ⟨literalFrom_eq_atStop chars stop_of_head?_dropWhile,
      bareFrom_eq_atStop chars stop_of_head?_dropWhile⟩

end SExpr

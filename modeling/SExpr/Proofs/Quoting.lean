import SExpr.Proofs.Enclosing
import SExpr.Proofs.Grammar.Writing

namespace SExpr

open TextUnit

section Names

private theorem QuoteMark.ofName?_eq_some_iff {name : String} {mark : QuoteMark} :
    ofName? name = some mark ↔ name = mark.name := by
  constructor
  · intro found
    unfold ofName? at found
    have same := List.find?_some found
    exact (eq_of_beq same).symm
  · rintro rfl
    exact ofName?_name mark

private theorem Datum.marked?_eq_some_iff {d marked : Datum} {mark : QuoteMark} :
    d.marked? = some (mark, marked) ↔ d = .pair (.atom mark.name) marked := by
  constructor
  · intro found
    unfold marked? at found
    split at found
    · rename_i name expression
      obtain ⟨mark', name_eq, pair_eq⟩ := Option.map_eq_some_iff.1 found
      cases pair_eq
      rw [QuoteMark.ofName?_eq_some_iff.1 name_eq, pair]
    · cases found
  · rintro rfl
    exact marked?_marked mark marked

private theorem QuoteMark.name_plain (mark : QuoteMark) :
    mark.name ≠ "" ∧ ∀ c ∈ mark.name.toList, stopsAtom c = false := by
  have plain : mark.name.toList.all (!stopsAtom ·) = true := by
    cases mark <;> decide
  constructor
  · cases mark <;> decide
  · intro c inside
    simpa using List.all_eq_true.1 plain c inside

end Names

private theorem escape_of_plain {special : Char → Bool} {text : List Char}
    (plain : ∀ c ∈ text, special c = false) : escape special text = text := by
  induction text with
  | nil => rfl
  | cons c text ih =>
    rw [List.forall_mem_cons] at plain
    rw [escape, List.flatMap_cons, plain.1, ← escape, ih plain.2]
    rfl

private theorem endsInBackslash_append {front : List Char}
    (plain : ∀ c ∈ front, stopsLiteral c = false) (inside : Bool) (text : List Char) :
    endsInBackslash inside (front ++ text) = endsInBackslash inside text := by
  induction front with
  | nil => rfl
  | cons c front ih =>
    rw [List.forall_mem_cons] at plain
    rw [List.cons_append, endsInBackslash_of_plain inside plain.1, ih plain.2]

/-- Whether the text, with the blanks of `gap` in front of it, may be put behind `mark` and in front
of a closing parenthesis. -/
structure MayBeMarked (mark : QuoteMark) (gap text : String) : Prop where
  blank : ∀ c ∈ gap.toList, isBlank c
  /-- An at sign right behind a comma would belong to the mark. -/
  apart : mark = .unquote → gap = "" → text.toList.head? ≠ some '@'
  full : ∃ c ∈ text.toList, isBlank c = false
  /-- A backslash at the end would take the closing parenthesis. -/
  whole : endsInBackslash false text.toList = false

namespace MayBeMarked

variable {mark : QuoteMark} {gap text : String} (may : MayBeMarked mark gap text)
include may

private theorem exprAt_of_read {options : ReadOptions} {d : Datum}
    (found : read options text = .ok d) :
    exprAt options options.maxDepth (split text.toList) = .ok (some d) [] := by
  rcases read_eq_ok_iff_exprAt.1 found with ⟨none_eq, -⟩ | some_eq
  · exfalso
    have absent := ((exprAt_readsExpressions _ _).absent _ _).1 none_eq
    have drops := dropsBackslash_skipBlanks false (split text.toList)
    rw [dropsBackslash, dropsBackslash, join_split, may.whole] at drops
    generalize front : skipBlanks (split text.toList) = units at absent drops
    cases absent with
    | atEnd =>
      obtain ⟨c, inside, notBlank⟩ := may.full
      rw [skipBlanks_split] at front
      have blank := List.dropWhile_eq_nil_iff.1 (split_eq_nil front) c inside
      rw [notBlank] at blank
      cases blank
    | backslash => cases drops
  · exact some_eq

private theorem endsBefore : (Lexeme.mark mark).EndsBefore (gap.toList ++ text.toList) := by
  cases mark with
  | quote => trivial
  | quasiquote => trivial
  | unquoteSplicing => trivial
  | unquote =>
    by_cases nonempty : gap = ""
    · subst nonempty
      exact may.apart rfl rfl
    · apply Lexeme.endsBefore_of_gap _ _ may.blank
      · intro escaped
        cases escaped
      · rwa [ne_eq, String.toList_eq_nil_iff]

/-- The text is read behind the mark, which is one more level. -/
theorem read_signed {emptyLiteral : String} {limit : Nat} {d : Datum}
    (found : read ⟨emptyLiteral, limit⟩ text = .ok d) :
    read ⟨emptyLiteral, limit + 1⟩ (mark.sign ++ gap ++ text) = .ok (.marked mark d) := by
  obtain ⟨lexemes, scans, derives, shallow⟩ := exprAt_eq_ok_some_iff.1 (may.exprAt_of_read found)
  have scans := Scans.here (l := .mark mark) may.endsBefore (scans.blanks may.blank)
  rw [read_eq_ok_iff_exprAt, exprAt_maxDepth emptyLiteral (limit + 1) limit]
  right
  apply exprAt_eq_ok_some_iff.2
  refine ⟨.mark mark :: lexemes, ?_, .marked mark derives, ?_⟩
  · simpa [Lexeme.spelling] using scans
  · simpa using shallow

private theorem read_listed {emptyLiteral : String} {limit : Nat} {d : Datum}
    (found : read ⟨emptyLiteral, limit⟩ text = .ok d) :
    read ⟨emptyLiteral, limit + 1⟩ ("(" ++ (mark.name ++ " " ++ text) ++ ")") =
      .ok (.marked mark d) := by
  have reads := exprAt_readsExpressions ⟨emptyLiteral, limit⟩ limit
  have content_eq : (mark.name ++ " " ++ text).toList =
      mark.name.toList ++ ([' '] ++ text.toList) := by simp
  have name : exprAt ⟨emptyLiteral, limit⟩ limit (split (mark.name ++ " " ++ text).toList) =
      .ok (some (.atom mark.name)) (skipBlanks (split ([' '] ++ text.toList))) := by
    have spelled : Spelled ⟨emptyLiteral, limit⟩ (.atom mark.name) _ :=
      spelled_bare mark.name_plain.1
    obtain ⟨lexemes, derives, scans⟩ := spelled
    rw [escape_of_plain mark.name_plain.2] at scans
    rw [content_eq]
    exact exprAt_complete _ _ lexemes _ _ _ derives (by simp) (scans _ (by simp))
  have second : exprAt ⟨emptyLiteral, limit⟩ limit (skipBlanks (split ([' '] ++ text.toList))) =
      .ok (some d) [] := by
    rw [skipBlanks_split_append blank_space, reads.blanks]
    exact may.exprAt_of_read found
  have whole : dropsBackslash false (split (mark.name ++ " " ++ text).toList) = false := by
    have plain : ∀ c ∈ mark.name.toList, stopsLiteral c = false :=
      fun c inside => stopsLiteral_of_stopsAtom (mark.name_plain.2 c inside)
    rw [dropsBackslash, join_split, content_eq, endsInBackslash_append plain,
      endsInBackslash_append (List.forall_mem_singleton.2 (by decide))]
    exact may.whole
  rw [read_eq_ok_iff_exprAt, split_enclosed]
  right
  apply (exprAt_enclosed_eq_ok_iff emptyLiteral limit _ [.atom mark.name, d]).2
  exact ⟨.item name (.item second (.stop reads.at_end)), whole⟩

end MayBeMarked

/-- A mark in front of a text and the list of the name of the mark and the text are interchangeable.
Both are read as the same datum if one more level than the text needs is allowed, and otherwise both
are too deep. -/
theorem read_marked_or_listed (emptyLiteral : String) :
    (∀ mark gap text limit d, MayBeMarked mark gap text →
      read ⟨emptyLiteral, limit⟩ text = .ok d → ∀ depth,
        let signed := read ⟨emptyLiteral, depth⟩ (mark.sign ++ gap ++ text)
        let listed := read ⟨emptyLiteral, depth⟩ ("(" ++ (mark.name ++ " " ++ text) ++ ")")
        (d.depth + 1 ≤ depth → signed = .ok (.pair (.atom mark.name) d) ∧
          listed = .ok (.pair (.atom mark.name) d)) ∧
        (depth < d.depth + 1 → (∃ place, signed = .error ⟨.tooDeep, place⟩) ∧
          ∃ place, listed = .error ⟨.tooDeep, place⟩)) ∧
      ∀ (u q : Datum) (mark : QuoteMark),
        u.marked? = some (mark, q) ↔ u = .pair (.atom mark.name) q := by
  constructor
  · intro mark gap text limit d may found depth signed listed
    have atSign := read_of_found (may.read_signed found) depth
    have atName := read_of_found (may.read_listed found) depth
    rw [Datum.depth_marked] at atSign atName
    exact ⟨fun enough => ⟨atSign.1 enough, atName.1 enough⟩,
      fun deep => ⟨atSign.2 deep, atName.2 deep⟩⟩
  · intro u q mark
    exact Datum.marked?_eq_some_iff

theorem read_marked_or_listed_unquote :
    let text := "'(@a\\) \"\\\\\")"
    let d := Datum.marked .quote (.list [.atom "@a)", .atom "\\"])
    MayBeMarked .unquote "" text ∧ read ⟨" ", 7⟩ text = .ok d ∧
      read ⟨" ", 3⟩ ("," ++ "" ++ text) = .ok (.pair (.atom "unquote") d) ∧
      read ⟨" ", 3⟩ ("(" ++ ("unquote" ++ " " ++ text) ++ ")") = .ok (.pair (.atom "unquote") d) ∧
      (∃ place, read ⟨" ", 2⟩ ("," ++ "" ++ text) = .error ⟨.tooDeep, place⟩) ∧
      ∃ place, read ⟨" ", 2⟩ ("(" ++ ("unquote" ++ " " ++ text) ++ ")") =
        .error ⟨.tooDeep, place⟩ := by
  intro text d
  have may : MayBeMarked .unquote "" text :=
    ⟨by simp, by simp [text], ⟨'(', by simp [text], by decide⟩, by decide +kernel⟩
  have found : read ⟨" ", 7⟩ text = .ok d := by decide +kernel
  have depth : d.depth = 2 := by simp [d, Datum.depth_list, Datum.deepest]
  have alike := (read_marked_or_listed " ").1 .unquote "" text 7 d may found
  have enough := (alike 3).1 (by omega)
  have deep := (alike 2).2 (by omega)
  exact ⟨may, found, enough.1, enough.2, deep.1, deep.2⟩

end SExpr

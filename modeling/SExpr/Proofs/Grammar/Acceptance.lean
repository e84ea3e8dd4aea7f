import SExpr.Proofs.Grammar.Reading
import SExpr.Proofs.Place

namespace SExpr

open TextUnit

section Spelling

/-- Only bare atoms and the comma are read on into what is behind them. -/
theorem Lexeme.cases_ends (l : Lexeme) :
    (∃ items nonempty, l = .bare items nonempty) ∨ l = .mark .unquote ∨
      (∀ behind, l.EndsBefore behind) ∧ ∀ next, ¬l.RunsInto next := by
  cases l with
  | bare items nonempty => exact .inl ⟨items, nonempty, rfl⟩
  | opening => exact .inr (.inr ⟨fun _ => trivial, fun _ => id⟩)
  | closing => exact .inr (.inr ⟨fun _ => trivial, fun _ => id⟩)
  | literal items => exact .inr (.inr ⟨fun _ => trivial, fun _ => id⟩)
  | mark mark =>
    cases mark with
    | unquote => exact .inr (.inl rfl)
    | quote => exact .inr (.inr ⟨fun _ => trivial, fun _ => id⟩)
    | quasiquote => exact .inr (.inr ⟨fun _ => trivial, fun _ => id⟩)
    | unquoteSplicing => exact .inr (.inr ⟨fun _ => trivial, fun _ => id⟩)

theorem Lexeme.endsBefore_of_gap (l : Lexeme) {gap : List Char} (nonempty : gap ≠ [])
    (blank : ∀ c ∈ gap, isBlank c) (whole : l.EndsInEscapedReturn → gap.head? ≠ some '\n')
    (after : List Char) : l.EndsBefore (gap ++ after) := by
  obtain ⟨c, gap, rfl⟩ := List.exists_cons_of_ne_nil nonempty
  have blank : isBlank c := blank c (List.mem_cons_self ..)
  rcases l.cases_ends with ⟨items, _, rfl⟩ | rfl | ⟨ends, -⟩
  · refine ⟨fun c' head => ?_, fun last => by simpa using whole (escapedReturn_suffix_iff.2 last)⟩
    obtain rfl : c = c' := by simpa using head
    refine ⟨stopsAtom_of_isBlank blank, ?_⟩
    rintro rfl
    exact absurd blank (by decide)
  · intro head
    obtain rfl : c = '@' := by simpa using head
    exact absurd blank (by decide)
  · exact ends _

private theorem Lexeme.endsBefore_nil (l : Lexeme) : l.EndsBefore [] := by
  rcases l.cases_ends with ⟨items, _, rfl⟩ | rfl | ⟨ends, -⟩
  · simp [EndsBefore, BareEnd]
  · simp [EndsBefore]
  · exact ends []

private theorem Lexeme.head_stops {l : Lexeme} (h : ∀ items nonempty, l ≠ .bare items nonempty)
    (after : List Char) :
    ∃ c more, l.spelling ++ after = c :: more ∧ stopsAtom c ∧ c ≠ '\\' ∧ c ≠ '\n' ∧ c ≠ '@' := by
  cases l with
  | opening => exact ⟨'(', _, rfl, by decide⟩
  | closing => exact ⟨')', _, rfl, by decide⟩
  | literal items => exact ⟨'"', _, rfl, by decide⟩
  | bare items nonempty => exact absurd rfl (h items nonempty)
  | mark mark =>
    cases mark with
    | quote => exact ⟨'\x27', _, rfl, by decide⟩
    | quasiquote => exact ⟨'\x60', _, rfl, by decide⟩
    | unquote => exact ⟨',', _, rfl, by decide⟩
    | unquoteSplicing => exact ⟨',', _, rfl, by decide⟩

private theorem Lexeme.endsBefore_bare_iff {l : Lexeme} (items : List BareItem)
    (nonempty : items ≠ []) (after : List Char) :
    l.EndsBefore ((bare items nonempty).spelling ++ after) ↔ ¬l.RunsInto (bare items nonempty) := by
  obtain ⟨c, more, cons_eq, begins⟩ := exists_cons_bareItems items nonempty []
  rw [List.append_nil] at cons_eq
  rcases l.cases_ends with ⟨items', _, rfl⟩ | rfl | ⟨ends, apart⟩
  · refine iff_of_false (fun ends => ?_) (by simp [RunsInto])
    obtain ⟨stops, notBackslash⟩ := ends.1 c (by simp [spelling, cons_eq])
    rcases begins with plain | backslash
    · rw [plain] at stops
      cases stops
    · exact notBackslash backslash
  · simp [EndsBefore, RunsInto, spelling, cons_eq]
  · exact iff_of_true (ends _) (apart _)

private theorem Lexeme.endsBefore_spelling_iff {l next : Lexeme} (after : List Char) :
    l.EndsBefore (next.spelling ++ after) ↔ ¬l.RunsInto next := by
  by_cases isBare : ∃ items nonempty, next = .bare items nonempty
  · obtain ⟨items, nonempty, rfl⟩ := isBare
    exact endsBefore_bare_iff items nonempty after
  · have notBare : ∀ items nonempty, next ≠ .bare items nonempty := by simpa using isBare
    obtain ⟨c, more, cons_eq, stops, notBackslash, notFeed, notAt⟩ := head_stops notBare after
    have apart : ¬l.RunsInto next := by
      unfold RunsInto
      split
      · exact absurd rfl (notBare _ _)
      · exact absurd rfl (notBare _ _)
      · exact id
    refine iff_of_true ?_ apart
    rcases l.cases_ends with ⟨items, _, rfl⟩ | rfl | ⟨ends, -⟩
    · rw [EndsBefore, BareEnd, cons_eq]
      simp [stops, notBackslash, notFeed]
    · simpa [EndsBefore, cons_eq] using notAt
    · exact ends _

theorem Lexeme.TakesBackslash.eq_bare {l : Lexeme} (h : l.TakesBackslash) :
    ∃ items nonempty, l = .bare items nonempty := by
  cases l <;> first | exact ⟨_, _, rfl⟩ | cases h

theorem Placed.endsBefore {p : Placed} {placed : List Placed}
    (chain : (p :: placed).IsChain Placed.Apart) {final : List Char}
    (nothing : placed = [] → p.gap = [] → final = []) :
    p.lexeme.EndsBefore (p.gap ++ (placed.flatMap Placed.chars ++ final)) := by
  by_cases nonempty : p.gap = []
  · rw [nonempty, List.nil_append]
    cases placed with
    | nil =>
      rw [nothing rfl nonempty]
      exact p.lexeme.endsBefore_nil
    | cons next placed =>
      have apart : ¬p.lexeme.RunsInto next.lexeme := fun runs => chain.rel runs nonempty
      have ends := (Lexeme.endsBefore_spelling_iff
        (next.gap ++ (placed.flatMap Placed.chars ++ final))).2 apart
      simpa [Placed.chars] using ends
  · exact p.lexeme.endsBefore_of_gap nonempty p.blank p.whole _

private theorem scans_of_placed {placed : List Placed} (chain : placed.IsChain Placed.Apart)
    (nonempty : placed ≠ []) {final : List Char}
    (ending : final = [] ∨ final = ['\\'] ∧
      ∀ last ∈ placed.getLast?, last.lexeme.TakesBackslash ∧ last.gap = []) :
    Scans (placed.map Placed.lexeme) (placed.flatMap Placed.chars ++ final) [] := by
  induction placed with
  | nil => exact absurd rfl nonempty
  | cons p placed ih =>
    have assoc : (p :: placed).flatMap Placed.chars ++ final =
        p.lexeme.spelling ++ (p.gap ++ (placed.flatMap Placed.chars ++ final)) := by
      simp [Placed.chars]
    rw [assoc, List.map_cons]
    cases placed with
    | nil =>
      rcases ending with rfl | ⟨rfl, cut⟩
      · refine .here (p.endsBefore chain (by simp)) ?_
        simpa using Scans.done [] p.blank
      · obtain ⟨takes, gap_eq⟩ := cut p rfl
        obtain ⟨items, nonempty, lexeme_eq⟩ := takes.eq_bare
        rw [gap_eq, lexeme_eq]
        exact .cutHere items nonempty
    | cons next placed =>
      refine .here (p.endsBefore chain (by simp)) (.blanks p.blank (ih chain.tail (by simp) ?_))
      rwa [List.getLast?_cons_cons] at ending

private theorem Lexeme.EndsBefore.whole {l : Lexeme} {gap after : List Char}
    (ends : l.EndsBefore (gap ++ after)) (escaped : l.EndsInEscapedReturn) :
    gap.head? ≠ some '\n' := by
  cases l with
  | bare items _ =>
    intro head
    exact ends.2 (escapedReturn_suffix_iff.1 escaped) (by simp [head])
  | opening => cases escaped
  | closing => cases escaped
  | mark mark => cases escaped
  | literal items => cases escaped

private theorem Scans.placed {lexemes : List Lexeme} {text rest : List Char}
    (scans : Scans lexemes text rest) (atEnd : rest = []) :
    ∃ (lead : List Char) (placed : List Placed) (final : List Char),
      (∀ c ∈ lead, isBlank c) ∧ placed.IsChain Placed.Apart ∧
        (final = [] ∨ final = ['\\'] ∧
          ∃ last ∈ placed.getLast?, last.lexeme.TakesBackslash ∧ last.gap = []) ∧
        lexemes = placed.map Placed.lexeme ∧
          text = lead ++ (placed.flatMap Placed.chars ++ final) := by
  induction scans with
  | @done gap rest blank =>
    subst atEnd
    exact ⟨gap, [], [], blank, .nil, .inl rfl, rfl, by simp⟩
  | @cut gap items nonempty blank =>
    let last : Placed := ⟨.bare items nonempty, [], by simp, by simp⟩
    exact ⟨gap, [last], ['\\'], blank, .singleton last,
      .inr ⟨rfl, last, rfl, trivial, rfl⟩, rfl,
      by simp [last, Placed.chars, Lexeme.spelling]⟩
  | @lexeme gap after rest l lexemes blank ends others ih =>
    obtain ⟨lead, placed, final, blank_lead, chain, ending, rfl, rfl⟩ := ih atEnd
    let p : Placed := ⟨l, lead, blank_lead, ends.whole⟩
    refine ⟨gap, p :: placed, final, blank, chain.cons ?_, ?_, rfl, by simp [p, Placed.chars]⟩
    · intro next member runs nil
      obtain ⟨behind, rfl⟩ := List.head?_eq_some_iff.1 member
      obtain rfl : lead = [] := nil
      have ends : l.EndsBefore
          (next.lexeme.spelling ++ (next.gap ++ (behind.flatMap Placed.chars ++ final))) := by
        simpa [Placed.chars] using ends
      exact (Lexeme.endsBefore_spelling_iff _).1 ends runs
    · rcases ending with rfl | ⟨rfl, last, member, takes⟩
      · exact .inl rfl
      · exact .inr ⟨rfl, last, by simp [List.getLast?_cons, Option.mem_def.1 member], takes⟩

theorem spells_iff_scans {lexemes : List Lexeme} (nonempty : lexemes ≠ []) {text : List Char} :
    Spells lexemes text ↔ Scans lexemes text [] := by
  constructor
  · rintro ⟨lead, placed, final, blank, chain, ending, rfl, rfl⟩
    rw [List.append_assoc]
    exact (scans_of_placed chain (by simpa using nonempty) ending).blanks blank
  · intro scans
    obtain ⟨lead, placed, final, blank, chain, ending, rfl, rfl⟩ := scans.placed rfl
    refine ⟨lead, placed, final, blank, chain, ?_, rfl, (List.append_assoc ..).symm⟩
    rcases ending with rfl | ⟨rfl, last, member, takes⟩
    · exact .inl rfl
    · refine .inr ⟨rfl, fun last' member' => ?_⟩
      obtain rfl := Option.mem_unique member member'
      exact takes

theorem spells_nil_iff {text : List Char} :
    Spells [] text ↔ Absent (skipBlanks (split text)) [] := by
  constructor
  · rintro ⟨lead, placed, final, blank, -, ending, nil_eq, rfl⟩
    obtain rfl := List.map_eq_nil_iff.1 nil_eq.symm
    rw [List.flatMap_nil, List.append_nil, skipBlanks_split_append blank]
    rcases ending with rfl | ⟨rfl, -⟩
    · exact .atEnd
    · exact .backslash
  · intro absent
    obtain ⟨gap, body, blank, rfl, body_eq⟩ := exists_skipBlanks_split text
    rw [body_eq] at absent
    generalize units_eq : split body = units at absent
    cases absent with
    | atEnd =>
      obtain rfl := split_eq_nil units_eq
      exact ⟨gap, [], [], blank, .nil, .inl rfl, rfl, by simp⟩
    | backslash =>
      obtain ⟨behind, rfl, nil_eq⟩ := split_eq_cons units_eq
      obtain rfl := split_eq_nil nil_eq.symm
      exact ⟨gap, [], ['\\'], blank, .nil, .inr ⟨rfl, by simp⟩, rfl, by simp⟩

end Spelling

theorem Derives.ne_nil {options : ReadOptions} {lexemes : List Lexeme} {d : Datum}
    (derives : Derives options lexemes d) : lexemes ≠ [] := by
  cases derives <;> simp

/-- A text is read as a datum exactly if it spells a document of that datum which nests no deeper
than the limit. -/
theorem read_eq_ok_iff (options : ReadOptions) (text : String) (d : Datum) :
    read options text = .ok d ↔
      ∃ lexemes, Spells lexemes text.toList ∧ DerivesDocument options lexemes d ∧
        d.depth ≤ options.maxDepth := by
  rw [read_eq_ok_iff_exprAt]
  constructor
  · rintro (⟨none_eq, rfl⟩ | some_eq)
    · have absent := (exprAt_readsExpressions options options.maxDepth).absent _ _ |>.1 none_eq
      exact ⟨[], spells_nil_iff.2 absent, .inl ⟨rfl, rfl⟩, by simp⟩
    · obtain ⟨lexemes, scans, derives, shallow⟩ := exprAt_eq_ok_some_iff.1 some_eq
      exact ⟨lexemes, (spells_iff_scans derives.ne_nil).2 scans, .inr derives, shallow⟩
  · rintro ⟨lexemes, spells, ⟨rfl, rfl⟩ | derives, shallow⟩
    · exact .inl ⟨((exprAt_readsExpressions options options.maxDepth).absent _ _).2
        (spells_nil_iff.1 spells), rfl⟩
    · have scans := (spells_iff_scans derives.ne_nil).1 spells
      exact .inr (exprAt_eq_ok_some_iff.2 ⟨lexemes, scans, derives, shallow⟩)

example : read ⟨"-", 2⟩ "('a `b ,\\@ ,@\"\")" = .ok (.list
    [.list [.atom "quote", .atom "a"], .list [.atom "quasiquote", .atom "b"],
      .list [.atom "unquote", .atom "@"], .list [.atom "unquote-splicing", .atom "-"]]) := by
  decide +kernel

end SExpr

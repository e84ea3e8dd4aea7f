import SExpr.Proofs.Grammar.Reading
import SExpr.Proofs.Session

/-!
# How far bare atoms reach

A bare atom takes as much of a text as can be in one, and never fails.
-/

namespace SExpr

open TextUnit

section Reach

/-- A text cut in two where the front may be all of a bare atom. Each backslash has the whole unit
that it stands in front of, or is the last of the text. -/
inductive BareCut (items : List BareItem) : (front behind : List Char) → Prop where
  | whole {behind : List Char}
      (apart : items.getLast? = some (.escaped (.char '\r')) → behind.head? ≠ some '\n') :
      BareCut items (items.flatMap BareItem.chars) behind
  | unpaired : BareCut items (items.flatMap BareItem.chars ++ ['\\']) []

/-- Whether a bare atom could not reach further into the text than to the end of `front`. -/
structure LongestBareCut (items : List BareItem) (front behind : List Char) : Prop where
  cut : BareCut items front behind
  longest : ∀ items' front' behind', BareCut items' front' behind' →
    front' ++ behind' = front ++ behind → front'.length ≤ front.length

private theorem BareCut.join_suffix {items : List BareItem} {front behind : List Char}
    (cut : BareCut items front behind) (taken : List Char) :
    join (bareFrom taken (split (front ++ behind))).2 <:+ behind := by
  cases cut with
  | whole apart =>
    rw [bareFrom_spelling items behind apart]
    obtain ⟨passed, rest_eq⟩ := bareFrom_suffix
      ((items.flatMap BareItem.meaning).reverse ++ taken) (split behind)
    refine ⟨join passed, ?_⟩
    rw [← join_append, rest_eq, join_split]
  | unpaired =>
    have scan := bareFrom_spelling items ['\\'] (by simp) taken
    rw [List.append_nil, scan, split_cons_of_ne (by decide), split, List.foldr_nil,
      bareFrom_backslash]
    exact List.suffix_rfl

private theorem exists_bareCut (text : List Char) :
    ∃ items front behind, text = front ++ behind ∧ BareCut items front behind ∧
      bareFrom [] (split text) = (items.flatMap BareItem.meaning, split behind) := by
  generalize scan : bareFrom [] (split text) = scanned
  obtain ⟨chars, rest⟩ := scanned
  obtain ⟨items, behind, rfl, rfl, stop⟩ := exists_spelling_of_bareFrom scan
  rcases stop with ⟨ends, rfl⟩ | ⟨rfl, rfl⟩
  · exact ⟨items, _, behind, rfl, .whole ends.2, rfl⟩
  · exact ⟨items, _, [], (List.append_nil _).symm, .unpaired, rfl⟩

private theorem atom?_longest (options : ReadOptions) {text : List Char}
    (notQuote : text.head? ≠ some '"') :
    ∃ items front behind, text = front ++ behind ∧ LongestBareCut items front behind ∧
      let chars := items.flatMap BareItem.meaning
      atom? options (split text) =
        .ok (if chars = [] then none else some (.ofList chars)) (split behind) := by
  obtain ⟨items, front, behind, text_eq, cut, scan⟩ := exists_bareCut text
  refine ⟨items, front, behind, text_eq, ⟨cut, ?_⟩, ?_⟩
  · intro items' front' behind' cut' same
    -- The scan reaches at least to any cut, and its own is the one that it stops at.
    have reaches := (cut'.join_suffix []).length_le
    rw [same, ← text_eq, scan, join_split] at reaches
    have lengths := congrArg List.length same
    rw [List.length_append, List.length_append] at lengths
    omega
  · rw [atom?, if_neg (by rwa [peek?_split]), bare?_eq, scan, Outcome.map_ok]

end Reach

section Backslashes

/-- A text written with backslashes: one in front of each character that would end a bare atom, and
of any others. -/
inductive Backslashed : (text spelling : List Char) → Prop where
  | nil : Backslashed [] []
  | plain {c : Char} {text spelling : List Char} (h : stopsAtom c = false)
      (rest : Backslashed text spelling) : Backslashed (c :: text) (c :: spelling)
  | escaped (c : Char) {text spelling : List Char} (rest : Backslashed text spelling) :
      Backslashed (c :: text) ('\\' :: c :: spelling)

private theorem Backslashed.exists_items {text spelling : List Char}
    (h : Backslashed text spelling) :
    ∃ items : List BareItem,
      spelling = items.flatMap BareItem.chars ∧ text = items.flatMap BareItem.meaning := by
  induction h with
  | nil => exact ⟨[], rfl, rfl⟩
  | @plain c text spelling h rest ih =>
    obtain ⟨items, rfl, rfl⟩ := ih
    exact ⟨.plain c h :: items, rfl, rfl⟩
  | @escaped c text spelling rest ih =>
    obtain ⟨items, rfl, rfl⟩ := ih
    exact ⟨.escaped (.char c) :: items, rfl, rfl⟩

private theorem getLast?_meaning {items : List BareItem} {c : Char}
    (h : items.getLast? = some (.escaped (.char c))) :
    (items.flatMap BareItem.meaning).getLast? = some c := by
  obtain ⟨front, rfl⟩ := List.getLast?_eq_some_iff.1 h
  rw [List.flatMap_append, List.flatMap_singleton]
  exact List.getLast?_concat

/-- What may be behind a text for a bare atom to end there. -/
structure EndsText (text behind : List Char) : Prop where
  stops : ∀ c ∈ behind.head?, stopsAtom c ∧ c ≠ '\\'
  apart : text.getLast? = some '\r' → behind.head? ≠ some '\n'

private theorem atom?_backslashed (options : ReadOptions) {text spelling behind : List Char}
    (written : Backslashed text spelling) (nonempty : text ≠ []) (ends : EndsText text behind) :
    atom? options (split (spelling ++ behind)) =
      .ok (some (String.ofList text)) (split behind) := by
  obtain ⟨items, rfl, rfl⟩ := written.exists_items
  have items_ne_nil : items ≠ [] := by
    intro nil
    apply nonempty
    rw [nil, List.flatMap_nil]
  have bareEnd : BareEnd items behind :=
    ⟨ends.stops, fun last => ends.apart (getLast?_meaning last)⟩
  exact atom?_bare items_ne_nil (bareFrom_of_bareEnd bareEnd)

end Backslashes

/-- Wherever requests take a reader, if no double quote is next there, an atom is read without an
error: from as much as can be in a bare atom, without the backslashes that escape. A text that is
written with backslashes is read back, if what follows ends it. -/
theorem Reader.atom?_reaches (options : ReadOptions) (text : String) (requests : List Request) :
    let under := (ofText options text).after requests
    let here := under.atom?
    ∃ before left : String, under.cursor.Divides before left text ∧
      (under.cursor.peek? ≠ some '"' → ∃ items front behind,
        let chars := items.flatMap BareItem.meaning
        left.toList = front ++ behind ∧ LongestBareCut items front behind ∧
          here.1 = .ok (if chars = [] then none else some (.ofList chars)) ∧
            here.2.cursor.Divides (before ++ .ofList front) (.ofList behind) text) ∧
      ∀ atom spelling behind, atom ≠ [] → Backslashed atom spelling → EndsText atom behind →
        left.toList = spelling ++ behind →
          here.1 = .ok (some (.ofList atom)) ∧
            here.2.cursor.Divides (before ++ .ofList spelling) (.ofList behind) text := by
  intro under here
  obtain ⟨before, passed⟩ := after_hasPassed options text requests
  have rest_eq : split (join under.cursor.rest) = under.cursor.rest := split_join passed.paired.2
  have forward := atom?_forward under.options
  refine ⟨_, _, passed.divides, ?_, ?_⟩
  · intro notQuote
    rw [Cursor.peek?, ← head?_join] at notQuote
    obtain ⟨items, front, behind, left_eq, cut, ok_eq⟩ := atom?_longest under.options notQuote
    rw [rest_eq] at ok_eq
    rw [left_eq] at rest_eq
    refine ⟨items, front, behind, ?_, cut,
      under.run_divides_of_ok forward passed rest_eq.symm ok_eq⟩
    rw [String.toList_ofList, left_eq]
  · intro atom spelling behind nonempty written ends left_eq
    rw [String.toList_ofList] at left_eq
    have ok_eq := atom?_backslashed under.options written nonempty ends
    rw [← left_eq, rest_eq] at ok_eq
    rw [left_eq] at rest_eq
    exact under.run_divides_of_ok forward passed rest_eq.symm ok_eq

theorem Reader.atom?_reaches_backslashed :
    let under := (ofText .standard "\"\"a\\ b)").after [.literal]
    Backslashed ['a', ' ', 'b'] ['a', '\\', ' ', 'b'] ∧ EndsText ['a', ' ', 'b'] [')'] ∧
      under.atom?.1 = .ok (some "a b") ∧
        under.atom?.2.cursor.Divides "\"\"a\\ b" ")" "\"\"a\\ b)" := by
  intro under
  have written : Backslashed ['a', ' ', 'b'] ['a', '\\', ' ', 'b'] :=
    .plain (by decide) (.escaped ' ' (.plain (by decide) .nil))
  have ends : EndsText ['a', ' ', 'b'] [')'] := ⟨by simp [stopsAtom], by simp⟩
  obtain ⟨before, left, divides, -, reads⟩ := atom?_reaches .standard "\"\"a\\ b)" [.literal]
  have left_eq : left.toList = ['a', '\\', ' ', 'b'] ++ [')'] := by
    have joined := congrArg join divides.rest_eq
    rw [join_split] at joined
    exact joined.symm.trans (by decide +kernel)
  obtain rfl : before = "\"\"" := by
    have chars_eq := congrArg String.toList divides.text_eq
    rw [String.toList_append, left_eq] at chars_eq
    change ['"', '"'] ++ _ = _ at chars_eq
    exact String.toList_inj.1 (List.append_cancel_right chars_eq).symm
  exact ⟨written, ends, reads _ _ _ (by simp) written ends left_eq⟩

end SExpr

import SExpr.Proofs.Expression
import SExpr.Proofs.Grammar.Lexeme

/-!
# Scanning a text character by character

The units of a text matter in one place only, behind a backslash in a bare atom.
-/

namespace SExpr

namespace TextUnit

theorem split_eq_cons {text : List Char} {u : TextUnit} {rest : List TextUnit}
    (h : split text = u :: rest) : ∃ behind, text = u.chars ++ behind ∧ rest = split behind := by
  have paired := paired_split text
  rw [h] at paired
  refine ⟨join rest, ?_, (split_join (paired.suffix (List.suffix_cons u rest))).symm⟩
  rw [← join_split text, h, join_cons]

theorem split_eq_nil {text : List Char} (h : split text = []) : text = [] := by
  rw [← join_split text, h, join_nil]

theorem split_eq_append {text : List Char} {before rest : List TextUnit}
    (h : split text = before ++ rest) :
    ∃ behind, text = join before ++ behind ∧ rest = split behind := by
  induction before generalizing text with
  | nil => exact ⟨text, rfl, h.symm⟩
  | cons u before ih =>
    obtain ⟨more, rfl, more_eq⟩ := split_eq_cons h
    obtain ⟨behind, rfl, rest_eq⟩ := ih more_eq.symm
    exact ⟨behind, by simp, rest_eq⟩

theorem split_chars_append {u : TextUnit} {text : List Char}
    (h : u = .char '\r' → text.head? ≠ some '\n') : split (u.chars ++ text) = u :: split text := by
  cases u with
  | crlf =>
    change cons '\r' (cons '\n' (split text)) = _
    rw [cons_of_ne (by decide : '\n' ≠ '\r'), cons_crlf]
  | char c =>
    change cons c (split text) = _
    by_cases hc : c = '\r'
    · exact cons_of_head_ne (head?_split (h (congrArg _ hc))) c
    · exact cons_of_ne hc _

theorem head?_split_of_ne {text : List Char} {c : Char} (hc : c ≠ '\r')
    (h : text.head? = some c) : (split text).head? = some (.char c) := by
  obtain ⟨behind, rfl⟩ := List.head?_eq_some_iff.1 h
  rw [split_cons_of_ne hc, List.head?_cons]

@[simp] theorem join_map_char (text : List Char) : join (text.map .char) = text := by
  induction text with
  | nil => rfl
  | cons c text ih => simp [ih]

theorem head?_ne_of_split_return {text : List Char} {rest : List TextUnit}
    (h : split ('\r' :: text) = .char '\r' :: rest) : text.head? ≠ some '\n' := by
  intro head
  obtain ⟨behind, rfl⟩ := List.head?_eq_some_iff.1 head
  have paired : split ('\r' :: '\n' :: behind) = .crlf :: split behind :=
    split_chars_append (u := .crlf) (by simp)
  rw [h] at paired
  cases paired

end TextUnit

open TextUnit

/-- A run of characters may be passed over character by character, unless it stops at a line feed
and not at a carriage return. -/
theorem dropWhile_split {stop : Char → Bool} (together : stop '\r' = false → stop '\n' = false)
    (text : List Char) :
    (split text).dropWhile (!stop ·.first) = split (text.dropWhile (!stop ·)) := by
  induction text with
  | nil => rfl
  | cons c text ih =>
    by_cases stops : stop c
    · rw [List.dropWhile_cons_of_neg (by simpa using stops), split_cons]
      rcases cons_cases c (split text) with ⟨rfl, rest, -, cons_eq⟩ | ⟨-, cons_eq⟩
      · rw [cons_eq, List.dropWhile_cons_of_neg (by simpa [first] using stops)]
      · rw [cons_eq, List.dropWhile_cons_of_neg (by simpa using stops)]
    · have goes : stop c = false := by simpa using stops
      rw [List.dropWhile_cons_of_pos (by simpa using goes), ← ih, split_cons]
      rcases cons_cases c (split text) with ⟨rfl, rest, text_eq, cons_eq⟩ | ⟨-, cons_eq⟩
      · rw [cons_eq, text_eq, List.dropWhile_cons_of_pos (by simpa [first] using goes),
          List.dropWhile_cons_of_pos (by simpa using together goes)]
      · rw [cons_eq, List.dropWhile_cons_of_pos (by simpa using goes)]

theorem skipBlanks_split (text : List Char) :
    skipBlanks (split text) = split (text.dropWhile isBlank) := by
  have split_eq := @dropWhile_split (!isBlank ·) (by decide) text
  simpa only [Bool.not_not, skipBlanks] using split_eq

theorem exists_skipBlanks_split (text : List Char) :
    ∃ gap body, (∀ c ∈ gap, isBlank c) ∧ text = gap ++ body ∧
      skipBlanks (split text) = split body :=
  ⟨text.takeWhile isBlank, text.dropWhile isBlank,
    fun _ h => List.all_eq_true.1 List.all_takeWhile _ h, List.takeWhile_append_dropWhile.symm,
    skipBlanks_split text⟩

theorem skipBlanks_split_of_head {text : List Char} (h : ∀ c ∈ text.head?, isBlank c = false) :
    skipBlanks (split text) = split text := by
  rw [skipBlanks_split]
  cases text with
  | nil => rfl
  | cons c text => rw [List.dropWhile_cons_of_neg (by simp [h c rfl])]

theorem skipBlanks_split_append {gap : List Char} (blank : ∀ c ∈ gap, isBlank c)
    (text : List Char) : skipBlanks (split (gap ++ text)) = skipBlanks (split text) := by
  rw [skipBlanks_split, skipBlanks_split, List.dropWhile_append_of_pos blank]

section Literal

variable (taken text : List Char)

private theorem literalFrom_split_close :
    literalFrom taken (split ('"' :: text)) = .ok taken.reverse (split text) := by
  rw [split_cons_of_ne (by decide), literalFrom_close]

private theorem literalFrom_split_plain {c : Char} (h : c ≠ '"' ∧ c ≠ '\\') :
    literalFrom taken (split (c :: text)) = literalFrom (c :: taken) (split text) := by
  have plain : stopsLiteral c = false := by simp [stopsLiteral, h]
  rw [split_cons]
  rcases cons_cases c (split text) with ⟨rfl, rest, text_eq, cons_eq⟩ | ⟨-, cons_eq⟩
  · rw [cons_eq, text_eq, literalFrom_plain _ _ (by decide), literalFrom_plain _ _ (by decide)]
    rfl
  · rw [cons_eq, literalFrom_plain (u := .char c) _ _ plain]
    rfl

theorem literalText_map_meaning (options : ReadOptions) (items : List LiteralItem) :
    options.literalText (items.map LiteralItem.meaning) =
      if items = [] then options.emptyLiteral
      else String.ofList (items.map LiteralItem.meaning) := by
  rw [options.literalText_eq_ite]
  simp only [List.map_eq_nil_iff]

theorem unescape_char (c : Char) : unescape (.char c) = [controlOf c] := by
  unfold unescape controlOf
  split <;> simp_all

private theorem literalFrom_split_escape (c : Char) :
    literalFrom taken (split ('\\' :: c :: text)) =
      literalFrom (controlOf c :: taken) (split text) := by
  rw [split_cons_of_ne (by decide), split_cons]
  rcases cons_cases c (split text) with ⟨rfl, rest, text_eq, cons_eq⟩ | ⟨-, cons_eq⟩
  · rw [cons_eq, text_eq, literalFrom_escape, literalFrom_plain _ _ (by decide)]
    rfl
  · rw [cons_eq, literalFrom_escape, unescape_char]
    rfl

theorem literalFrom_spelling (items : List LiteralItem) :
    literalFrom taken (split (items.flatMap LiteralItem.chars ++ '"' :: text)) =
      .ok (taken.reverse ++ items.map LiteralItem.meaning) (split text) := by
  induction items generalizing taken with
  | nil => simpa using literalFrom_split_close taken text
  | cons item items ih =>
    cases item with
    | plain c h =>
      change literalFrom taken (split (c :: (items.flatMap LiteralItem.chars ++ '"' :: text))) = _
      rw [literalFrom_split_plain taken _ h, ih]
      simp [LiteralItem.meaning]
    | escaped c =>
      change literalFrom taken
        (split ('\\' :: c :: (items.flatMap LiteralItem.chars ++ '"' :: text))) = _
      rw [literalFrom_split_escape, ih]
      simp [LiteralItem.meaning]

theorem exists_spelling_of_literalFrom {taken text chars : List Char} {rest : List TextUnit}
    (h : literalFrom taken (split text) = .ok chars rest) :
    ∃ (items : List LiteralItem) (behind : List Char),
      text = items.flatMap LiteralItem.chars ++ '"' :: behind ∧ rest = split behind ∧
        chars = taken.reverse ++ items.map LiteralItem.meaning := by
  cases text with
  | nil => simp [split] at h
  | cons c text =>
    by_cases close : c = '"'
    · subst close
      rw [literalFrom_split_close] at h
      cases h
      exact ⟨[], text, rfl, rfl, by simp⟩
    · by_cases backslash : c = '\\'
      · subst backslash
        cases text with
        | nil =>
          rw [split_cons_of_ne (by decide)] at h
          simp [split] at h
        | cons c text =>
          rw [literalFrom_split_escape] at h
          obtain ⟨items, behind, rfl, rfl, rfl⟩ := exists_spelling_of_literalFrom h
          exact ⟨.escaped c :: items, behind, rfl, rfl, by simp [LiteralItem.meaning]⟩
      · rw [literalFrom_split_plain taken text ⟨close, backslash⟩] at h
        obtain ⟨items, behind, rfl, rfl, rfl⟩ := exists_spelling_of_literalFrom h
        exact ⟨.plain c ⟨close, backslash⟩ :: items, behind, rfl, rfl,
          by simp [LiteralItem.meaning]⟩
termination_by text.length

end Literal

section Bare

theorem stopsAtom_of_isBlank {c : Char} (h : isBlank c) : stopsAtom c := by
  simp [stopsAtom, h]

private theorem ne_return_of_plain {c : Char} (h : stopsAtom c = false) : c ≠ '\r' ∧ c ≠ '\n' := by
  refine ⟨?_, ?_⟩ <;> rintro rfl <;> exact absurd h (by decide)

/-- A spelling ends in a backslash and a carriage return if its last item is those two. -/
theorem escapedReturn_suffix_iff {items : List BareItem} :
    ['\\', '\r'] <:+ items.flatMap BareItem.chars ↔
      items.getLast? = some (.escaped (.char '\r')) := by
  cases items using List.reverseRecOn with
  | nil => simp
  | append_singleton items item =>
    rw [List.flatMap_append, List.flatMap_singleton, List.getLast?_append, List.getLast?_singleton]
    constructor
    · rintro ⟨before, h⟩
      have last := congrArg List.getLast? h
      match item with
      | .plain c hc =>
        obtain rfl : '\r' = c := by simpa [BareItem.chars] using last
        exact absurd hc (by decide)
      | .escaped (.char c) =>
        obtain rfl : '\r' = c := by simpa [BareItem.chars] using last
        rfl
      | .escaped .crlf => simp [BareItem.chars] at last
    · intro h
      obtain rfl : item = .escaped (.char '\r') := by simpa using h
      exact List.suffix_append _ _

/-- The characters behind a bare atom that has come to its end. -/
def BareEnd (items : List BareItem) (behind : List Char) : Prop :=
  (∀ c ∈ behind.head?, stopsAtom c ∧ c ≠ '\\') ∧
    (items.getLast? = some (.escaped (.char '\r')) → behind.head? ≠ some '\n')

private theorem BareEnd.cons {items : List BareItem} {behind : List Char} (h : BareEnd items behind)
    {item : BareItem}
    (whole : items = [] → item = .escaped (.char '\r') → behind.head? ≠ some '\n') :
    BareEnd (item :: items) behind := by
  refine ⟨h.1, fun last => ?_⟩
  cases items with
  | nil => exact whole rfl (by simpa using last)
  | cons next items => exact h.2 (by simpa using last)

theorem exists_cons_bareItems (items : List BareItem) (nonempty : items ≠ []) (behind : List Char) :
    ∃ c more, items.flatMap BareItem.chars ++ behind = c :: more ∧
      (stopsAtom c = false ∨ c = '\\') := by
  cases items with
  | nil => exact absurd rfl nonempty
  | cons item items =>
    cases item with
    | plain c h => exact ⟨c, items.flatMap BareItem.chars ++ behind, rfl, .inl h⟩
    | escaped u =>
      exact ⟨'\\', u.chars ++ (items.flatMap BareItem.chars ++ behind), by simp [BareItem.chars],
        .inr rfl⟩

private theorem head?_bareItems (items : List BareItem) (nonempty : items ≠ [])
    (behind : List Char) :
    (items.flatMap BareItem.chars ++ behind).head? ≠ some '\n' := by
  obtain ⟨c, more, cons_eq, plain | rfl⟩ := exists_cons_bareItems items nonempty behind
  · simpa [cons_eq] using (ne_return_of_plain plain).2
  · simp [cons_eq]

theorem head?_behind_return {items : List BareItem} {behind : List Char}
    (whole : (.escaped (.char '\r') :: items).getLast? = some (BareItem.escaped (.char '\r')) →
      behind.head? ≠ some '\n') :
    (items.flatMap BareItem.chars ++ behind).head? ≠ some '\n' := by
  by_cases nonempty : items = []
  · subst nonempty
    exact whole rfl
  · exact head?_bareItems items nonempty behind

theorem meaning_ne_nil {items : List BareItem} (nonempty : items ≠ []) :
    items.flatMap BareItem.meaning ≠ [] := by
  cases items with
  | nil => exact absurd rfl nonempty
  | cons item items =>
    cases item with
    | plain c h => simp [BareItem.meaning]
    | escaped u => simp [BareItem.meaning, u.chars_ne_nil]

/-- Behind every unit that a bare atom takes, its spelling goes on as a text of its own. -/
theorem bareFrom_spelling (items : List BareItem) (behind : List Char)
    (whole : items.getLast? = some (.escaped (.char '\r')) → behind.head? ≠ some '\n')
    (taken : List Char) :
    bareFrom taken (split (items.flatMap BareItem.chars ++ behind)) =
      bareFrom ((items.flatMap BareItem.meaning).reverse ++ taken) (split behind) := by
  induction items generalizing taken with
  | nil => rfl
  | cons item items ih =>
    have whole_items : items.getLast? = some (.escaped (.char '\r')) → behind.head? ≠ some '\n' :=
      fun h => whole (by simp [List.getLast?_cons, h])
    cases item with
    | plain c h =>
      change bareFrom taken (split (c :: (items.flatMap BareItem.chars ++ behind))) = _
      rw [split_cons_of_ne (ne_return_of_plain h).1, bareFrom_plain (u := .char c) _ _ h,
        ih whole_items]
      simp [BareItem.meaning]
    | escaped u =>
      have apart : u = .char '\r' →
          (items.flatMap BareItem.chars ++ behind).head? ≠ some '\n' := by
        rintro rfl
        exact head?_behind_return whole
      change bareFrom taken
        (split ('\\' :: (u.chars ++ items.flatMap BareItem.chars) ++ behind)) = _
      rw [List.cons_append, List.append_assoc, split_cons_of_ne (by decide),
        split_chars_append apart, bareFrom_escape, ih whole_items]
      simp [BareItem.meaning]

theorem exists_split_cons (c : Char) (text : List Char) :
    ∃ u rest, split (c :: text) = u :: rest ∧ u.first = c := by
  rw [split_cons]
  rcases cons_cases c (split text) with ⟨rfl, rest, -, cons_eq⟩ | ⟨-, cons_eq⟩
  · exact ⟨.crlf, rest, cons_eq, rfl⟩
  · exact ⟨.char c, split text, cons_eq, rfl⟩

private theorem bareFrom_at_end (taken : List Char) {behind : List Char}
    (stop : ∀ c ∈ behind.head?, stopsAtom c ∧ c ≠ '\\') :
    bareFrom taken (split behind) = (taken.reverse, split behind) := by
  cases behind with
  | nil => exact bareFrom_nil taken
  | cons c behind =>
    obtain ⟨u, rest, split_eq, rfl⟩ := exists_split_cons c behind
    obtain ⟨stops, notBackslash⟩ := stop u.first rfl
    rw [split_eq, bareFrom_stop taken rest stops notBackslash]

theorem bareFrom_of_bareEnd {items : List BareItem} {behind : List Char}
    (ends : BareEnd items behind) :
    bareFrom [] (split (items.flatMap BareItem.chars ++ behind)) =
      (items.flatMap BareItem.meaning, split behind) := by
  rw [bareFrom_spelling items behind ends.2 [], bareFrom_at_end _ ends.1, List.append_nil,
    List.reverse_reverse]

/-- What is scanned as a bare atom is spelled as one, up to where the atom ends or to a backslash
with nothing behind it. -/
theorem exists_spelling_of_bareFrom {taken text chars : List Char} {rest : List TextUnit}
    (h : bareFrom taken (split text) = (chars, rest)) :
    ∃ (items : List BareItem) (behind : List Char),
      text = items.flatMap BareItem.chars ++ behind ∧
        chars = taken.reverse ++ items.flatMap BareItem.meaning ∧
          (BareEnd items behind ∧ rest = split behind ∨ behind = ['\\'] ∧ rest = []) := by
  generalize units_eq : split text = units at h
  induction taken, units using bareFrom_induction generalizing text with
  | nil taken =>
    rw [bareFrom_nil] at h
    cases h
    obtain rfl := split_eq_nil units_eq
    exact ⟨[], [], rfl, by simp, .inl ⟨by simp [BareEnd], rfl⟩⟩
  | plain taken u more plain ih =>
    rw [bareFrom_plain _ _ plain] at h
    obtain ⟨c, rfl⟩ : ∃ c, u = .char c := ⟨_, eq_char_of_first rfl (ne_return_of_plain plain).1⟩
    obtain ⟨text, rfl, rfl⟩ := split_eq_cons units_eq
    obtain ⟨items, behind, rfl, rfl, stop⟩ := ih rfl h
    exact ⟨.plain c plain :: items, behind, rfl, by simp [BareItem.meaning],
      stop.imp_left (And.imp_left fun atEnd => atEnd.cons (by simp))⟩
  | backslash taken =>
    rw [bareFrom_backslash] at h
    cases h
    obtain ⟨text, rfl, nil_eq⟩ := split_eq_cons units_eq
    obtain rfl := split_eq_nil nil_eq.symm
    exact ⟨[], ['\\'], rfl, by simp, .inr ⟨rfl, rfl⟩⟩
  | escape taken escaped more ih =>
    rw [bareFrom_escape] at h
    obtain ⟨text, rfl, tail_eq⟩ := split_eq_cons units_eq
    obtain ⟨text, rfl, rfl⟩ := split_eq_cons tail_eq.symm
    obtain ⟨items, behind, rfl, rfl, stop⟩ := ih rfl h
    have whole : items = [] → BareItem.escaped escaped = .escaped (.char '\r') →
        behind.head? ≠ some '\n' := by
      intro nil escaped_eq
      -- The carriage return is a unit of its own, so no line feed is behind it.
      cases escaped_eq
      subst nil
      exact head?_ne_of_split_return tail_eq.symm
    exact ⟨.escaped escaped :: items, behind, by simp [BareItem.chars],
      by simp [BareItem.meaning], stop.imp_left (And.imp_left fun atEnd => atEnd.cons whole)⟩
  | stop taken u more stops notBackslash =>
    rw [bareFrom_stop _ _ stops notBackslash] at h
    cases h
    refine ⟨[], text, rfl, by simp, .inl ⟨⟨fun c hc => ?_, by simp⟩, units_eq.symm⟩⟩
    obtain ⟨text, rfl⟩ := List.head?_eq_some_iff.1 hc
    obtain ⟨v, rest, split_eq, rfl⟩ := exists_split_cons c text
    rw [units_eq] at split_eq
    obtain ⟨rfl, -⟩ := List.cons.inj split_eq
    exact ⟨stops, notBackslash⟩

end Bare

end SExpr

import SExpr.Text.Unit
import Mathlib.Data.List.Chain

/-!
# Texts and their units

What is put in front of a text, or behind a part of one, is split on its own unless a carriage
return meets a line feed there.
-/

namespace SExpr

namespace TextUnit

/-- No carriage return stands apart from a line feed right behind it. -/
def Paired (units : List TextUnit) : Prop :=
  units.IsChain fun u v => ¬(u = .char '\r' ∧ v = .char '\n')

theorem split_cons (c : Char) (text : List Char) : split (c :: text) = cons c (split text) := rfl

theorem eq_char_of_first {u : TextUnit} {c : Char} (h : u.first = c) (hc : c ≠ '\r') :
    u = .char c := by
  cases u with
  | char d => exact congrArg TextUnit.char h
  | crlf => exact absurd h.symm hc

theorem cons_of_ne {c : Char} (hc : c ≠ '\r') (units : List TextUnit) :
    cons c units = .char c :: units := by
  unfold cons
  split
  · exact absurd rfl hc
  · rfl

theorem split_cons_of_ne {c : Char} (hc : c ≠ '\r') (text : List Char) :
    split (c :: text) = .char c :: split text :=
  cons_of_ne hc (split text)

theorem cons_of_head_ne {units : List TextUnit} (h : units.head? ≠ some (.char '\n')) (c : Char) :
    cons c units = .char c :: units := by
  unfold cons
  split
  · simp at h
  · rfl

theorem cons_crlf (rest : List TextUnit) : cons '\r' (.char '\n' :: rest) = .crlf :: rest := rfl

theorem cons_cases (c : Char) (units : List TextUnit) :
    (c = '\r' ∧ ∃ rest, units = .char '\n' :: rest ∧ cons c units = .crlf :: rest) ∨
      (¬(c = '\r' ∧ units.head? = some (.char '\n')) ∧ cons c units = .char c :: units) := by
  by_cases h : c = '\r' ∧ units.head? = some (.char '\n')
  · obtain ⟨rfl, head⟩ := h
    obtain ⟨rest, rfl⟩ := List.head?_eq_some_iff.1 head
    exact .inl ⟨rfl, rest, rfl, rfl⟩
  · refine .inr ⟨h, ?_⟩
    by_cases hc : c = '\r'
    · exact cons_of_head_ne (fun head => h ⟨hc, head⟩) c
    · exact cons_of_ne hc units

theorem head?_split {text : List Char} (h : text.head? ≠ some '\n') :
    (split text).head? ≠ some (.char '\n') := by
  cases text with
  | nil => simp [split]
  | cons c text =>
    rw [split_cons]
    rcases cons_cases c (split text) with ⟨_, rest, _, heq⟩ | ⟨_, heq⟩
    · simp [heq]
    · simpa [heq] using h

theorem paired_split (text : List Char) : Paired (split text) := by
  induction text with
  | nil => exact .nil
  | cons c text ih =>
    rw [split_cons]
    rcases cons_cases c (split text) with ⟨_, rest, heq, hcons⟩ | ⟨apart, hcons⟩
    · rw [heq] at ih
      rw [hcons]
      exact (ih.suffix (List.suffix_cons _ rest)).cons (by simp)
    · rw [hcons]
      apply ih.cons
      intro v hv
      rintro ⟨hc, rfl⟩
      exact apart ⟨by simpa using hc, hv⟩

/-- Units that are paired up are the units of the text that they make up. -/
theorem split_join {units : List TextUnit} (paired : Paired units) :
    split (join units) = units := by
  induction units with
  | nil => rfl
  | cons u units ih =>
    have tail_eq := ih (paired.suffix (List.suffix_cons u units))
    cases u with
    | crlf =>
      change cons '\r' (cons '\n' (split (join units))) = _
      rw [tail_eq, cons_of_ne (by decide : '\n' ≠ '\r'), cons_crlf]
    | char c =>
      change cons c (split (join units)) = _
      rw [tail_eq]
      rcases cons_cases c units with ⟨rfl, rest, rfl, _⟩ | ⟨_, hcons⟩
      · exact absurd ⟨rfl, rfl⟩ paired.rel
      · exact hcons

theorem split_join_append {before : List TextUnit} (paired : Paired before) {text : List Char}
    (h : text.head? ≠ some '\n') : split (join before ++ text) = before ++ split text := by
  have together : Paired (before ++ split text) := by
    apply paired.append (paired_split text)
    intro u _ v hv
    rintro ⟨_, rfl⟩
    exact head?_split h hv
  rw [← split_join together, join_append, join_split]

theorem split_append (before : List Char) {text : List Char} (h : text.head? ≠ some '\n') :
    split (before ++ text) = split before ++ split text := by
  have h := split_join_append (paired_split before) h
  rwa [join_split] at h

theorem split_eq_map {text : List Char} (h : '\r' ∉ text) : split text = text.map .char := by
  induction text with
  | nil => rfl
  | cons c text ih =>
    rw [List.mem_cons, not_or] at h
    rw [split_cons, ih h.2, cons_of_ne (Ne.symm h.1), List.map_cons]

theorem head?_join (units : List TextUnit) : (join units).head? = peek? units := by
  cases units with
  | nil => rfl
  | cons u units => cases u <;> rfl

theorem peek?_split (text : List Char) : peek? (split text) = text.head? := by
  rw [← head?_join, join_split]

end TextUnit

theorem exists_cons_of_peek? {text : List TextUnit} {c : Char} (h : peek? text = some c) :
    ∃ u rest, text = u :: rest ∧ u.first = c := by
  cases text with
  | nil => cases h
  | cons u rest => exact ⟨u, rest, rfl, Option.some.inj h⟩

theorem eq_cons_of_peek? {text : List TextUnit} {c : Char} (h : peek? text = some c)
    (hc : c ≠ '\r') : ∃ rest, text = .char c :: rest := by
  cases text with
  | nil => cases h
  | cons u rest => exact ⟨rest, by rw [TextUnit.eq_char_of_first (Option.some.inj h) hc]⟩

theorem peek?_append_cons_ne {text : List TextUnit} {u : TextUnit} {c : Char}
    (h : peek? text ≠ some c) (hu : u.first ≠ c) (more : List TextUnit) :
    peek? (text ++ u :: more) ≠ some c := by
  cases text with
  | nil => simpa [peek?] using hu
  | cons v text => exact h

section Blanks

theorem skipBlanks_cons_of_not_blank {u : TextUnit} (h : isBlank u.first = false)
    (rest : List TextUnit) : skipBlanks (u :: rest) = u :: rest :=
  List.dropWhile_cons_of_neg (by simp [h])

theorem isBlank_of_skipBlanks {text rest : List TextUnit} {u : TextUnit}
    (h : skipBlanks text = u :: rest) : isBlank u.first = false := by
  have head := List.head?_dropWhile_not (isBlank ·.first) text
  rw [show text.dropWhile (isBlank ·.first) = u :: rest from h] at head
  exact head

@[simp] theorem skipBlanks_skipBlanks (text : List TextUnit) :
    skipBlanks (skipBlanks text) = skipBlanks text := by
  cases h : skipBlanks text with
  | nil => rfl
  | cons u rest => exact skipBlanks_cons_of_not_blank (isBlank_of_skipBlanks h) rest

private theorem skipBlanks_append_of_ne_nil {text : List TextUnit} (h : skipBlanks text ≠ [])
    (more : List TextUnit) : skipBlanks (text ++ more) = skipBlanks text ++ more := by
  unfold skipBlanks at *
  rw [List.dropWhile_append, if_neg (by simpa using h)]

private theorem skipBlanks_append_of_nil {text : List TextUnit} (h : skipBlanks text = [])
    (more : List TextUnit) : skipBlanks (text ++ more) = skipBlanks more := by
  unfold skipBlanks at *
  rw [List.dropWhile_append, if_pos (by simp [h])]

theorem skipBlanks_append_cons {u : TextUnit} (notBlank : isBlank u.first = false)
    (text more : List TextUnit) :
    skipBlanks (text ++ u :: more) = skipBlanks text ++ u :: more := by
  by_cases nil : skipBlanks text = []
  · rw [skipBlanks_append_of_nil nil, nil, skipBlanks_cons_of_not_blank notBlank, List.nil_append]
  · exact skipBlanks_append_of_ne_nil nil _

end Blanks

end SExpr

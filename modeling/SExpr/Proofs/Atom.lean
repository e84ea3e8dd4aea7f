import SExpr.Proofs.Forward
import SExpr.Proofs.Units

namespace SExpr

theorem TextUnit.chars_ne_nil (u : TextUnit) : u.chars ≠ [] := by
  cases u <;> simp [chars]

section Literal

variable (taken : List Char) (rest : List TextUnit)

@[simp] theorem literalFrom_nil : literalFrom taken [] = .error .unterminatedLiteral [] := by
  rw [literalFrom.eq_def]

@[simp] theorem literalFrom_close :
    literalFrom taken (.char '"' :: rest) = .ok taken.reverse rest := by
  rw [literalFrom.eq_def]
  rfl

@[simp] theorem literalFrom_backslash :
    literalFrom taken [.char '\\'] = .error .unterminatedLiteral [] := by
  rw [literalFrom.eq_def]
  rfl

@[simp] theorem literalFrom_escape (escaped : TextUnit) :
    literalFrom taken (.char '\\' :: escaped :: rest) =
      literalFrom ((unescape escaped).reverse ++ taken) rest := by
  rw [literalFrom.eq_def]
  rfl

theorem literalFrom_plain {u : TextUnit} (plain : stopsLiteral u.first = false) :
    literalFrom taken (u :: rest) = literalFrom (u.chars.reverse ++ taken) rest := by
  rw [literalFrom.eq_def]
  simp [plain]

end Literal

/-- Induction along the scan of a literal, with the cases of its equations. -/
@[elab_as_elim]
theorem literalFrom_induction {motive : List Char → List TextUnit → Prop}
    (nil : ∀ taken, motive taken [])
    (plain : ∀ taken u rest, stopsLiteral u.first = false →
      motive (u.chars.reverse ++ taken) rest → motive taken (u :: rest))
    (close : ∀ taken rest, motive taken (.char '"' :: rest))
    (backslash : ∀ taken, motive taken [.char '\\'])
    (escape : ∀ taken escaped rest, motive ((unescape escaped).reverse ++ taken) rest →
      motive taken (.char '\\' :: escaped :: rest))
    (taken : List Char) (text : List TextUnit) : motive taken text := by
  have eq_backslash : ∀ u : TextUnit, ¬(!stopsLiteral u.first) = true → u.first ≠ '"' →
      u = .char '\\' := by
    intro u stops notClose
    have first : u.first = '\\' := by simpa [stopsLiteral, notClose] using stops
    exact TextUnit.eq_char_of_first first (by decide)
  fun_induction literalFrom taken text with
  | case1 taken => exact nil taken
  | case2 taken u rest continues ih => exact plain taken u rest (by simpa using continues) ih
  | case3 taken u rest stops first =>
    rw [TextUnit.eq_char_of_first first (by decide)]
    exact close taken rest
  | case4 taken u stops notClose =>
    rw [eq_backslash u stops notClose]
    exact backslash taken
  | case5 taken u stops notClose escaped rest ih =>
    rw [eq_backslash u stops notClose]
    exact escape taken escaped rest ih

theorem literalFrom_error {taken : List Char} {text rest : List TextUnit} {fault : Fault}
    (h : literalFrom taken text = .error fault rest) :
    fault = .unterminatedLiteral ∧ rest = [] := by
  induction taken, text using literalFrom_induction with
  | nil taken =>
    rw [literalFrom_nil] at h
    cases h
    exact ⟨rfl, rfl⟩
  | plain taken u more plain ih =>
    rw [literalFrom_plain _ _ plain] at h
    exact ih h
  | close taken more =>
    rw [literalFrom_close] at h
    cases h
  | backslash taken =>
    rw [literalFrom_backslash] at h
    cases h
    exact ⟨rfl, rfl⟩
  | escape taken escaped more ih =>
    rw [literalFrom_escape] at h
    exact ih h

section Bare

variable (taken : List Char) (rest : List TextUnit)

@[simp] theorem bareFrom_nil : bareFrom taken [] = (taken.reverse, []) := by
  rw [bareFrom.eq_def]

@[simp] theorem bareFrom_backslash : bareFrom taken [.char '\\'] = (taken.reverse, []) := by
  rw [bareFrom.eq_def]
  rfl

@[simp] theorem bareFrom_escape (escaped : TextUnit) :
    bareFrom taken (.char '\\' :: escaped :: rest) =
      bareFrom (escaped.chars.reverse ++ taken) rest := by
  rw [bareFrom.eq_def]
  rfl

theorem bareFrom_plain {u : TextUnit} (plain : stopsAtom u.first = false) :
    bareFrom taken (u :: rest) = bareFrom (u.chars.reverse ++ taken) rest := by
  rw [bareFrom.eq_def]
  simp [plain]

theorem bareFrom_stop {u : TextUnit} (stops : stopsAtom u.first) (notBackslash : u.first ≠ '\\') :
    bareFrom taken (u :: rest) = (taken.reverse, u :: rest) := by
  rw [bareFrom.eq_def]
  simp [stops, notBackslash]

end Bare

@[elab_as_elim]
theorem bareFrom_induction {motive : List Char → List TextUnit → Prop}
    (nil : ∀ taken, motive taken [])
    (plain : ∀ taken u rest, stopsAtom u.first = false →
      motive (u.chars.reverse ++ taken) rest → motive taken (u :: rest))
    (backslash : ∀ taken, motive taken [.char '\\'])
    (escape : ∀ taken escaped rest, motive (escaped.chars.reverse ++ taken) rest →
      motive taken (.char '\\' :: escaped :: rest))
    (stop : ∀ taken u rest, stopsAtom u.first → u.first ≠ '\\' → motive taken (u :: rest))
    (taken : List Char) (text : List TextUnit) : motive taken text := by
  fun_induction bareFrom taken text with
  | case1 taken => exact nil taken
  | case2 taken u rest continues ih => exact plain taken u rest (by simpa using continues) ih
  | case3 taken u _ first =>
    rw [TextUnit.eq_char_of_first first (by decide)]
    exact backslash taken
  | case4 taken u _ first escaped rest ih =>
    rw [TextUnit.eq_char_of_first first (by decide)]
    exact escape taken escaped rest ih
  | case5 taken u rest stops notBackslash =>
    exact stop taken u rest (by simpa using stops) notBackslash

private theorem bareFrom_append_taken (taken more : List Char) (text : List TextUnit) :
    bareFrom (taken ++ more) text =
      (more.reverse ++ (bareFrom taken text).1, (bareFrom taken text).2) := by
  induction taken, text using bareFrom_induction with
  | nil taken => simp
  | plain taken u rest plain ih =>
    rw [bareFrom_plain _ _ plain, bareFrom_plain _ _ plain, ← List.append_assoc, ih]
  | backslash taken => simp
  | escape taken escaped rest ih =>
    rw [bareFrom_escape, bareFrom_escape, ← List.append_assoc, ih]
  | stop taken u rest stops notBackslash =>
    rw [bareFrom_stop _ _ stops notBackslash, bareFrom_stop _ _ stops notBackslash]
    simp

private theorem bareFrom_eq (taken : List Char) (text : List TextUnit) :
    bareFrom taken text = (taken.reverse ++ (bareFrom [] text).1, (bareFrom [] text).2) :=
  bareFrom_append_taken [] taken text

private theorem bareFrom_fst_ne_nil (u : TextUnit) (taken : List Char) (text : List TextUnit) :
    (bareFrom (u.chars.reverse ++ taken) text).1 ≠ [] := by
  rw [bareFrom_eq]
  simp [u.chars_ne_nil]

/-- A bare atom takes something, except at the end of the text, with a lone backslash in front of it
or not, and in front of a character that cannot begin an atom. -/
theorem bareFrom_cases (text : List TextUnit) :
    text = [] ∨ text = [.char '\\'] ∨
      (∃ u rest, text = u :: rest ∧ stopsAtom u.first ∧ u.first ≠ '\\') ∨
      ((bareFrom [] text).1 ≠ [] ∧ (bareFrom [] text).2.length < text.length) := by
  cases text with
  | nil => exact .inl rfl
  | cons u rest =>
    by_cases stops : stopsAtom u.first
    · by_cases backslash : u.first = '\\'
      · obtain rfl := TextUnit.eq_char_of_first backslash (by decide)
        cases rest with
        | nil => exact .inr (.inl rfl)
        | cons escaped rest =>
          rw [bareFrom_escape]
          have shorter := (bareFrom_suffix (escaped.chars.reverse ++ []) rest).length_le
          refine .inr (.inr (.inr ⟨bareFrom_fst_ne_nil escaped [] rest, ?_⟩))
          rw [List.length_cons, List.length_cons]
          omega
      · exact .inr (.inr (.inl ⟨u, rest, rfl, stops, backslash⟩))
    · rw [bareFrom_plain _ _ (by simpa using stops)]
      have shorter := (bareFrom_suffix (u.chars.reverse ++ []) rest).length_le
      refine .inr (.inr (.inr ⟨bareFrom_fst_ne_nil u [] rest, ?_⟩))
      rw [List.length_cons]
      omega

theorem bare?_of_nil {text rest : List TextUnit} (h : bareFrom [] text = ([], rest)) :
    bare? text = .ok none rest := by
  simp [bare?, h]

theorem bare?_of_ne_nil {text : List TextUnit} (h : (bareFrom [] text).1 ≠ []) :
    bare? text = .ok (some (String.ofList (bareFrom [] text).1)) (bareFrom [] text).2 := by
  unfold bare?
  split
  · rename_i bare_eq
    exact absurd (congrArg Prod.fst bare_eq) h
  · rename_i bare_eq
    rw [bare_eq]

theorem bare?_eq (text : List TextUnit) :
    bare? text = (Outcome.ok (bareFrom [] text).1 (bareFrom [] text).2).map fun chars =>
      if chars = [] then none else some (String.ofList chars) := by
  rw [Outcome.map_ok]
  split
  · exact bare?_of_nil (Prod.ext ‹_› rfl)
  · exact bare?_of_ne_nil ‹_›

end SExpr

import SExpr.Proofs.Grammar.Scan
import SExpr.Proofs.Session

/-!
# Where string literals end

The end of a literal is found by looking back from the quotes, with no scan for escapes from its
beginning.
-/

namespace SExpr

open TextUnit

section Backslashes

def backslashesAtEnd (text : List Char) : Nat :=
  (text.rtakeWhile (· == '\\')).length

private theorem backslashesAtEnd_concat (text : List Char) :
    backslashesAtEnd (text ++ ['\\']) = backslashesAtEnd text + 1 := by
  rw [backslashesAtEnd, List.rtakeWhile_concat_pos _ _ _ (by simp), List.length_append]
  rfl

private theorem backslashesAtEnd_concat_of_ne (text : List Char) {c : Char} (h : c ≠ '\\') :
    backslashesAtEnd (text ++ [c]) = 0 := by
  rw [backslashesAtEnd, List.rtakeWhile_concat_neg _ _ _ (by simp [h]), List.length_nil]

/-- Whether there is a double quote at `k` that an even number of backslashes stands in front of. -/
def ClosesAt (text : List Char) (k : Nat) : Prop :=
  text[k]? = some '"' ∧ backslashesAtEnd (text.take k) % 2 = 0

instance (text : List Char) (k : Nat) : Decidable (ClosesAt text k) :=
  inferInstanceAs (Decidable (_ ∧ _))

variable {front behind : List Char}

private theorem closesAt_append {k : Nat} (h : k < front.length) :
    ClosesAt (front ++ behind) k ↔ ClosesAt front k := by
  rw [ClosesAt, ClosesAt, List.getElem?_append_left h, List.take_append_of_le_length h.le]

private theorem closesAt_length :
    ClosesAt (front ++ behind) front.length ↔
      behind.head? = some '"' ∧ backslashesAtEnd front % 2 = 0 := by
  rw [ClosesAt, List.getElem?_append_right (Nat.le_refl _), Nat.sub_self, List.take_left,
    List.head?_eq_getElem?]

example : ClosesAt ['\\', '\\', '"'] 2 ∧ ¬ClosesAt ['\\', '"'] 1 := by decide

private theorem closesAt_concat {c : Char} {k : Nat} (h : ClosesAt (front ++ [c]) k) :
    ClosesAt front k ∨ c = '"' ∧ backslashesAtEnd front % 2 = 0 := by
  have inside : k < (front ++ [c]).length := by
    apply (List.getElem?_eq_some_iff.1 h.1).1
  rw [List.length_append, List.length_singleton] at inside
  by_cases inFront : k < front.length
  · exact .inl ((closesAt_append inFront).1 h)
  · obtain rfl : k = front.length := by omega
    right
    simpa using closesAt_length.1 h

end Backslashes

section Items

variable (items : List LiteralItem)

/-- The escapes of a literal take its backslashes two by two, unless they escape something else. -/
theorem backslashesAtEnd_literalItems :
    backslashesAtEnd (items.flatMap LiteralItem.chars) % 2 = 0 := by
  induction items using List.reverseRecOn with
  | nil => rfl
  | append_singleton items item ih =>
    rw [List.flatMap_append, List.flatMap_singleton]
    cases item with
    | plain c h => rw [LiteralItem.chars, backslashesAtEnd_concat_of_ne _ h.2]
    | escaped c =>
      rw [LiteralItem.chars, List.append_cons]
      by_cases backslash : c = '\\'
      · -- An escaped backslash adds two, any other escaped character ends the run.
        rw [backslash, backslashesAtEnd_concat, backslashesAtEnd_concat]
        omega
      · rw [backslashesAtEnd_concat_of_ne _ backslash]

private theorem not_closesAt_literalItems (k : Nat) :
    ¬ClosesAt (items.flatMap LiteralItem.chars) k := by
  induction items using List.reverseRecOn with
  | nil => simp [ClosesAt]
  | append_singleton items item ih =>
    rw [List.flatMap_append, List.flatMap_singleton]
    intro closes
    cases item with
    | plain c h =>
      obtain inFront | ⟨quote, -⟩ := closesAt_concat closes
      · exact ih inFront
      · exact h.1 quote
    | escaped c =>
      rw [LiteralItem.chars, List.append_cons] at closes
      obtain inFront | ⟨-, even⟩ := closesAt_concat closes
      · obtain inFront | ⟨quote, -⟩ := closesAt_concat inFront
        · exact ih inFront
        · exact absurd quote (by decide)
      · -- The backslash of the escape makes an even number odd.
        have evenInFront := backslashesAtEnd_literalItems items
        rw [backslashesAtEnd_concat] at even
        omega

private theorem exists_literalItems (text : List Char) :
    ∃ (items : List LiteralItem) (behind : List Char),
      text = items.flatMap LiteralItem.chars ++ behind ∧
        (behind = [] ∨ behind = ['\\'] ∨ behind.head? = some '"') := by
  cases text with
  | nil => exact ⟨[], [], rfl, .inl rfl⟩
  | cons c text =>
    by_cases plain : c ≠ '"' ∧ c ≠ '\\'
    · obtain ⟨items, behind, rfl, ends⟩ := exists_literalItems text
      exact ⟨.plain c plain :: items, behind, rfl, ends⟩
    · by_cases quote : c = '"'
      · subst quote
        exact ⟨[], '"' :: text, rfl, .inr (.inr rfl)⟩
      · obtain rfl : c = '\\' := by simpa [quote] using plain
        cases text with
        | nil => exact ⟨[], ['\\'], rfl, .inr (.inl rfl)⟩
        | cons c text =>
          obtain ⟨items, behind, rfl, ends⟩ := exists_literalItems text
          exact ⟨.escaped c :: items, behind, rfl, ends⟩
termination_by text.length

/-- What a text between the quotes of a literal is read as. -/
def unescaped : List Char → List Char
  | '\\' :: c :: text => controlOf c :: unescaped text
  | c :: text => c :: unescaped text
  | [] => []

private theorem unescaped_eq_nil_iff {text : List Char} : unescaped text = [] ↔ text = [] := by
  fun_cases unescaped text <;> simp

private theorem unescaped_cons {c : Char} (h : c ≠ '\\') (text : List Char) :
    unescaped (c :: text) = c :: unescaped text := by
  rw [unescaped]
  intro c text backslash
  exact absurd backslash h

private theorem unescaped_literalItems :
    unescaped (items.flatMap LiteralItem.chars) = items.map LiteralItem.meaning := by
  induction items with
  | nil => rfl
  | cons item items ih =>
    rw [List.flatMap_cons, List.map_cons, ← ih]
    cases item with
    | plain c h => exact unescaped_cons h.2 _
    | escaped c => rfl

end Items

def FirstClosesAt (text : List Char) (k : Nat) : Prop :=
  ClosesAt text k ∧ ∀ j < k, ¬ClosesAt text j

private theorem FirstClosesAt.eq_length {front behind : List Char} {k : Nat}
    (h : FirstClosesAt (front ++ behind) k) (notInFront : ∀ j, ¬ClosesAt front j)
    (closes : ClosesAt (front ++ behind) front.length) : k = front.length := by
  rcases Nat.lt_trichotomy k front.length with inFront | same | further
  · exact absurd ((closesAt_append inFront).1 h.1) (notInFront k)
  · exact same
  · exact absurd closes (h.2 front.length further)

private theorem literalFrom_of_firstClosesAt {text : List Char} {k : Nat}
    (h : FirstClosesAt text k) :
    literalFrom [] (split text) =
      .ok (unescaped (text.take k)) (split (text.drop (k + 1))) := by
  obtain ⟨items, behind, rfl, ends⟩ := exists_literalItems text
  have even := backslashesAtEnd_literalItems items
  have notInFront := not_closesAt_literalItems items
  rcases ends with rfl | rfl | head
  · rw [List.append_nil] at h
    exact absurd h.1 (notInFront k)
  · obtain inFront | ⟨quote, -⟩ := closesAt_concat h.1
    · exact absurd inFront (notInFront k)
    · exact absurd quote (by decide)
  · obtain ⟨more, rfl⟩ := List.head?_eq_some_iff.1 head
    obtain rfl := h.eq_length notInFront (closesAt_length.2 ⟨head, even⟩)
    rw [literalFrom_spelling, List.take_left, unescaped_literalItems, List.append_cons,
      List.drop_left' (by simp)]
    simp

example : literalFrom [] (split ['a', '\\', '"', '\\', 'n', '"', 'b']) =
    .ok ['a', '"', '\n'] [.char 'b'] := rfl

private theorem literalFrom_of_not_closesAt {text : List Char} (h : ∀ k, ¬ClosesAt text k) :
    literalFrom [] (split text) = .error .unterminatedLiteral [] := by
  cases scan : literalFrom [] (split text) with
  | error fault rest =>
    obtain ⟨rfl, rfl⟩ := literalFrom_error scan
    rfl
  | ok chars rest =>
    obtain ⟨items, behind, rfl, -, -⟩ := exists_spelling_of_literalFrom scan
    exact absurd (closesAt_length.2 ⟨rfl, backslashesAtEnd_literalItems items⟩) (h _)

section Production

variable (options : ReadOptions) {text : List TextUnit} {content : List Char}
  (tail_eq : text.tail = split content)

include tail_eq

private theorem literal_of_firstClosesAt {k : Nat} (h : FirstClosesAt content k) :
    let inside := content.take k
    literal options text =
      .ok (if inside = [] then options.emptyLiteral else .ofList (unescaped inside))
        (split (content.drop (k + 1))) := by
  intro inside
  rw [literal, tail_eq, literalFrom_of_firstClosesAt h, Outcome.map_ok,
    options.literalText_eq_ite]
  simp only [unescaped_eq_nil_iff]
  rfl

private theorem literal_of_not_closesAt (h : ∀ k, ¬ClosesAt content k) :
    literal options text = .error .unterminatedLiteral [] := by
  rw [literal, tail_eq, literalFrom_of_not_closesAt h, Outcome.map_error]

end Production

def firstUnit : List Char → List Char
  | '\r' :: '\n' :: _ => ['\r', '\n']
  | c :: _ => [c]
  | [] => []

private theorem firstUnit_of_split {text : List Char} {u : TextUnit} {rest : List TextUnit}
    (h : split text = u :: rest) : firstUnit text = u.chars := by
  obtain ⟨behind, rfl, rest_eq⟩ := split_eq_cons h
  cases u with
  | crlf => rfl
  | char c =>
    rw [chars_char, List.singleton_append] at h ⊢
    rw [firstUnit]
    intro more return_eq behind_eq
    subst return_eq behind_eq rest_eq
    exact head?_ne_of_split_return h rfl

private theorem exists_firstUnit_append (text : List Char) :
    ∃ behind, text = firstUnit text ++ behind ∧ (split text).tail = split behind := by
  cases units_eq : split text with
  | nil =>
    obtain rfl := split_eq_nil units_eq
    exact ⟨[], rfl, rfl⟩
  | cons u rest =>
    obtain ⟨behind, text_eq, rest_eq⟩ := split_eq_cons units_eq
    exact ⟨behind, by rwa [firstUnit_of_split units_eq], rest_eq⟩

/-- A literal opens with the unit that is next, and ends at the first quote behind it that an even
number of backslashes stands in front of. If there is none, the reader reports so at the end of the
text. -/
theorem Reader.literal_closes (options : ReadOptions) (text : String) (requests : List Request) :
    let under := (ofText options text).after requests
    let here := under.literal
    ∃ before opening content, opening = firstUnit (opening ++ content) ∧
      under.cursor.Divides before (String.ofList (opening ++ content)) text ∧
      ((∀ k, ¬ClosesAt content k) →
        here.1 = .error ⟨.unterminatedLiteral, here.2.cursor.position⟩ ∧
          here.2.cursor.Divides text "" text) ∧
      ∀ k, FirstClosesAt content k →
        let inside := content.take k
        here.1 = .ok (if inside = [] then options.emptyLiteral else .ofList (unescaped inside)) ∧
          here.2.cursor.Divides (before ++ .ofList (opening ++ content.take (k + 1)))
            (.ofList (content.drop (k + 1))) text := by
  intro under here
  obtain ⟨before, passed⟩ := after_hasPassed options text requests
  obtain ⟨content, left_eq, tail_eq⟩ := exists_firstUnit_append (join under.cursor.rest)
  generalize opening_eq : firstUnit (join under.cursor.rest) = opening at left_eq
  have rest_eq : under.cursor.rest = split (opening ++ content) := by
    rw [← left_eq, split_join passed.paired.2]
  rw [left_eq, ← rest_eq] at tail_eq
  have divides := passed.divides
  rw [left_eq] at divides opening_eq
  have forward := literal_forward under.options
  refine ⟨_, opening, content, opening_eq.symm, divides, ?_, ?_⟩
  · intro unclosed
    have error_eq := literal_of_not_closesAt under.options tail_eq unclosed
    have left_nil : (SExpr.literal under.options under.cursor.rest).rest = split [] := by
      rw [error_eq]
      rfl
    have atEnd :=
      run_divides forward under passed (rest_eq.trans (by rw [List.append_nil])) left_nil
    rw [← divides.text_eq] at atEnd
    refine ⟨(run_eq_error_iff forward under).2 ⟨?_, rfl⟩, atEnd⟩
    rw [rest_run forward, left_nil, error_eq]
    rfl
  · intro k closes inside
    have ok_eq := literal_of_firstClosesAt under.options tail_eq closes
    have options_eq : options = under.options := (options_after requests (ofText options text)).symm
    rw [options_eq]
    apply under.run_divides_of_ok forward passed _ ok_eq
    rw [List.append_assoc, List.take_append_drop, rest_eq]

theorem Reader.literal_closes_escaped :
    let under := (ofText .standard "x\"a\\\"\\n\"y").after [.atom]
    FirstClosesAt ['a', '\\', '"', '\\', 'n', '"', 'y'] 5 ∧ under.literal.1 = .ok "a\"\n" ∧
      under.literal.2.cursor.Divides "x\"a\\\"\\n\"" "y" "x\"a\\\"\\n\"y" := by
  intro under
  have first : FirstClosesAt ['a', '\\', '"', '\\', 'n', '"', 'y'] 5 :=
    ⟨by decide, by decide⟩
  obtain ⟨before, opening, content, opening_eq, divides, -, closes⟩ :=
    literal_closes .standard "x\"a\\\"\\n\"y" [.atom]
  have left_eq : opening ++ content = ['"', 'a', '\\', '"', '\\', 'n', '"', 'y'] := by
    have joined := congrArg join divides.rest_eq
    rw [String.toList_ofList, join_split] at joined
    exact joined.symm.trans (by decide +kernel)
  rw [left_eq] at opening_eq divides
  obtain rfl : opening = ['"'] := opening_eq
  obtain rfl := List.cons.inj left_eq |>.2
  obtain rfl : before = "x" := by
    have chars_eq := congrArg String.toList divides.text_eq
    rw [String.toList_append, String.toList_ofList] at chars_eq
    change ['x'] ++ _ = _ at chars_eq
    exact String.toList_inj.1 (List.append_cancel_right chars_eq).symm
  exact ⟨first, closes 5 first⟩

end SExpr

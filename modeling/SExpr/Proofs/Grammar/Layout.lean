import SExpr.Proofs.Correspondence
import SExpr.Proofs.Cursor
import SExpr.Proofs.Grammar.Acceptance

namespace SExpr

open TextUnit

/-- A way to write lexemes with blanks before, between and behind them. -/
structure Layout (lexemes : List Lexeme) where
  lead : List Char
  placed : List Placed
  blank : ∀ c ∈ lead, isBlank c
  apart : placed.IsChain Placed.Apart
  lexemes_eq : placed.map Placed.lexeme = lexemes

def Lexeme.text? (options : ReadOptions) : Lexeme → Option String
  | .literal items =>
    some (if items = [] then options.emptyLiteral
      else String.ofList (items.map LiteralItem.meaning))
  | .bare items _ => some (String.ofList (items.flatMap BareItem.meaning))
  | _ => none

section Lexemes

private theorem Lexeme.spelling_eq_of_bracket {l : Lexeme} {c : Char} (bracket : c = '(' ∨ c = ')')
    {after : List Char} (head : (l.spelling ++ after).head? = some c) : l.spelling = [c] := by
  cases l with
  | opening => simpa [spelling] using head
  | closing => simpa [spelling] using head
  | mark mark =>
    rcases bracket with rfl | rfl <;> cases mark <;> simp [spelling, QuoteMark.sign] at head
  | literal items => rcases bracket with rfl | rfl <;> simp [spelling] at head
  | bare items nonempty =>
    obtain ⟨c', more, cons_eq, begins⟩ := exists_cons_bareItems items nonempty after
    obtain rfl : c' = c := by simpa [spelling, cons_eq] using head
    rcases bracket with rfl | rfl <;> exact absurd begins (by decide)

private theorem Lexeme.eq_mark_of_mark? {l : Lexeme} {after : List Char} (ends : l.EndsBefore after)
    {mark : QuoteMark} {rest : List TextUnit}
    (h : mark? (split (l.spelling ++ after)) = some (mark, rest)) :
    l = .mark mark ∧ rest = split after := by
  have unmarked : ∀ {c text}, beginsLevel c = false →
      mark? (split (c :: text)) ≠ some (mark, rest) := by
    intro c text plain
    simp [(not_level_split plain text).1]
  cases l with
  | mark mark' =>
    rw [mark?_spelling ends] at h
    cases h
    exact ⟨rfl, rfl⟩
  | opening =>
    rw [spelling, List.singleton_append, split_cons_of_ne (by decide)] at h
    cases h
  | closing => exact absurd h (unmarked (by decide))
  | literal items => exact absurd h (unmarked (by decide))
  | bare items nonempty =>
    obtain ⟨c, more, cons_eq, begins⟩ := exists_cons_bareItems items nonempty after
    rw [spelling, cons_eq] at h
    refine absurd h (unmarked ?_)
    rcases begins with plain | rfl
    · exact beginsLevel_of_plain plain
    · decide

private theorem Lexeme.atom?_spelling {options : ReadOptions} {l : Lexeme} {after : List Char}
    (ends : l.EndsBefore after) (unmarked : mark? (split (l.spelling ++ after)) = none)
    (notOpening : peek? (split (l.spelling ++ after)) ≠ some '(') :
    atom? options (split (l.spelling ++ after)) = .ok (l.text? options)
      (if (l.text? options).isSome then split after else split (l.spelling ++ after)) := by
  cases l with
  | opening => exact absurd (peek?_split _) notOpening
  | mark mark =>
    rw [mark?_spelling ends] at unmarked
    cases unmarked
  | closing =>
    have front : split (closing.spelling ++ after) = .char ')' :: split after :=
      split_cons_of_ne (by decide) after
    have noBlank : skipBlanks (.char ')' :: split after) = .char ')' :: split after :=
      skipBlanks_cons_of_not_blank (by decide) _
    rw [front] at unmarked notOpening ⊢
    exact (atom?_eq_none_iff noBlank unmarked notOpening).2 (.closing _)
  | literal items => exact atom?_literal items after
  | bare items nonempty => exact atom?_bare nonempty (bareFrom_of_bareEnd ends)

end Lexemes

namespace Layout

variable {lexemes : List Lexeme}

def text (layout : Layout lexemes) : String :=
  String.ofList (layout.lead ++ layout.placed.flatMap Placed.chars)

/-- The position of the lexeme behind the first `n`, or of the end of the text. -/
def start (layout : Layout lexemes) (n : Nat) : Position :=
  .ofFront (layout.lead ++ (layout.placed.take n).flatMap Placed.chars)

def rest (layout : Layout lexemes) (n : Nat) : List TextUnit :=
  split ((layout.placed.drop n).flatMap Placed.chars)

variable (layout : Layout lexemes)

private theorem head?_placed {placed : List Placed} :
    ∀ c ∈ (placed.flatMap Placed.chars).head?, isBlank c = false := by
  cases placed with
  | nil => simp
  | cons p placed =>
    intro c head
    refine p.lexeme.head?_spelling (p.gap ++ placed.flatMap Placed.chars) c ?_
    simpa [Placed.chars] using head

private theorem skipBlanks_rest (n : Nat) : skipBlanks (layout.rest n) = layout.rest n :=
  skipBlanks_split_of_head head?_placed

private theorem skipBlanks_text : skipBlanks (split layout.text.toList) = layout.rest 0 := by
  rw [text, String.toList_ofList, skipBlanks_split_append layout.blank]
  exact layout.skipBlanks_rest 0

private theorem rest_of_length_le {n : Nat} (h : lexemes.length ≤ n) : layout.rest n = [] := by
  have short : layout.placed.length ≤ n := by
    rwa [← layout.lexemes_eq, List.length_map] at h
  rw [rest, List.drop_eq_nil_of_le short]
  rfl

private theorem rest_of_getElem? {n : Nat} {l : Lexeme} (h : lexemes[n]? = some l) :
    ∃ after, layout.rest n = split (l.spelling ++ after) ∧ l.EndsBefore after ∧
      skipBlanks (split after) = layout.rest (n + 1) := by
  rw [← layout.lexemes_eq, List.getElem?_map] at h
  obtain ⟨p, placed_eq, rfl⟩ := Option.map_eq_some_iff.1 h
  obtain ⟨lt, rfl⟩ := List.getElem?_eq_some_iff.1 placed_eq
  have drop_eq := List.drop_eq_getElem_cons lt
  have chain := layout.apart.drop n
  rw [drop_eq] at chain
  refine ⟨layout.placed[n].gap ++ (layout.placed.drop (n + 1)).flatMap Placed.chars, ?_, ?_, ?_⟩
  · rw [rest, drop_eq, List.flatMap_cons, Placed.chars, List.append_assoc]
  · have ends : Lexeme.EndsBefore _ (_ ++ (_ ++ [])) := Placed.endsBefore chain fun _ _ => rfl
    rwa [List.append_nil] at ends
  · rw [skipBlanks_split_append (Placed.blank _)]
    exact layout.skipBlanks_rest (n + 1)

/-- Both texts are what is left of two layouts behind the same number of lexemes. -/
def Level (a b : Layout lexemes) (text text' : List TextUnit) : Prop :=
  ∃ n ≤ lexemes.length, text = a.rest n ∧ text' = b.rest n

variable {a b : Layout lexemes} {text text' : List TextUnit}

private theorem Level.next {n : Nat} {l : Lexeme} (h : lexemes[n]? = some l) :
    Level a b (a.rest (n + 1)) (b.rest (n + 1)) :=
  ⟨n + 1, (List.getElem?_eq_some_iff.1 h).1, rfl, rfl⟩

private theorem Level.cases (level : Level a b text text') :
    text = [] ∧ text' = [] ∨
      ∃ (l : Lexeme) (after after' : List Char),
        text = split (l.spelling ++ after) ∧ text' = split (l.spelling ++ after') ∧
          l.EndsBefore after ∧ l.EndsBefore after' ∧
            Level a b (skipBlanks (split after)) (skipBlanks (split after')) := by
  obtain ⟨n, bound, rfl, rfl⟩ := level
  cases next : lexemes[n]? with
  | none =>
    rw [List.getElem?_eq_none_iff] at next
    exact .inl ⟨a.rest_of_length_le next, b.rest_of_length_le next⟩
  | some l =>
    obtain ⟨after, front, ends, behind⟩ := a.rest_of_getElem? next
    obtain ⟨after', front', ends', behind'⟩ := b.rest_of_getElem? next
    refine .inr ⟨l, after, after', front, front', ends, ends', ?_⟩
    rw [behind, behind']
    exact .next next

private theorem Level.skipBlanks_eq (level : Level a b text text') :
    skipBlanks text = text ∧ skipBlanks text' = text' := by
  obtain ⟨n, bound, rfl, rfl⟩ := level
  exact ⟨a.skipBlanks_rest n, b.skipBlanks_rest n⟩

private theorem Level.peek?_eq (level : Level a b text text') : peek? text = peek? text' := by
  rcases level.cases with ⟨rfl, rfl⟩ | ⟨l, after, after', rfl, rfl, -⟩
  · rfl
  · obtain ⟨c, spelling, cons_eq⟩ := List.exists_cons_of_ne_nil l.spelling_ne_nil
    rw [peek?_split, peek?_split, cons_eq]
    rfl

private theorem Level.bracket {c : Char} (bracket : c = '(' ∨ c = ')') {rest rest' : List TextUnit}
    (level : Level a b (.char c :: rest) (.char c :: rest')) :
    Level a b (skipBlanks rest) (skipBlanks rest') := by
  rcases level.cases with ⟨nil, -⟩ | ⟨l, after, after', front, front', -, -, behind⟩
  · cases nil
  · have head : (l.spelling ++ after).head? = some c := by
      rw [← peek?_split, ← front]
      rfl
    have spelling_eq := Lexeme.spelling_eq_of_bracket bracket head
    rw [spelling_eq, List.singleton_append, split_cons_of_ne (ne_return_of_bracket bracket)]
      at front front'
    cases front
    cases front'
    exact behind

private theorem Level.mark? (level : Level a b text text') {mark : QuoteMark} {rest : List TextUnit}
    (marked : mark? text = some (mark, rest)) :
    ∃ rest', SExpr.mark? text' = some (mark, rest') ∧
      Level a b (skipBlanks rest) (skipBlanks rest') := by
  rcases level.cases with ⟨rfl, -⟩ | ⟨l, after, after', rfl, rfl, ends, ends', behind⟩
  · cases marked
  · obtain ⟨rfl, rfl⟩ := Lexeme.eq_mark_of_mark? ends marked
    exact ⟨_, mark?_spelling ends', behind⟩

private theorem Level.atom? (options : ReadOptions) (level : Level a b text text')
    (unmarked : SExpr.mark? text = none) (notOpening : peek? text ≠ some '(') :
    Outcome.Agree (Option.Rel Eq) (Level a b) (atom? options text).skipBlanks
      (SExpr.atom? options text').skipBlanks := by
  have unmarked' := mark?_eq_none_of_peek?_eq level.peek?_eq unmarked
  have notOpening' := level.peek?_eq ▸ notOpening
  obtain ⟨noBlank, noBlank'⟩ := level.skipBlanks_eq
  have here := level
  rcases level.cases with ⟨rfl, rfl⟩ | ⟨l, after, after', rfl, rfl, ends, ends', behind⟩
  · exact .ok .none here
  · rw [Lexeme.atom?_spelling ends unmarked notOpening,
      Lexeme.atom?_spelling ends' unmarked' notOpening']
    cases l.text? options with
    | none =>
      simp only [Option.isSome_none, Bool.false_eq_true, if_false, Outcome.skipBlanks_ok, noBlank,
        noBlank']
      exact .ok .none here
    | some text => exact .ok (.some rfl) behind

private theorem corresponds (options : ReadOptions) (a b : Layout lexemes) :
    Corresponds options options Eq (Level a b) where
  name _ := rfl
  peek? := Level.peek?_eq
  bracket bracket level := Level.bracket bracket level
  mark? level marked := Level.mark? level marked
  atom? := Level.atom? options

private theorem text_eq_append (layout : Layout lexemes) (n : Nat) :
    split layout.text.toList =
      split (layout.lead ++ (layout.placed.take n).flatMap Placed.chars) ++ layout.rest n := by
  have feed : ((layout.placed.drop n).flatMap Placed.chars).head? ≠ some '\n' := fun head =>
    absurd (head?_placed '\n' head) (by decide)
  rw [rest, ← split_append _ feed, List.append_assoc, ← List.flatMap_append,
    List.take_append_drop, text, String.toList_ofList]

private theorem behind_eq_start {layout : Layout lexemes} {before : List TextUnit} {n : Nat}
    (h : split layout.text.toList = before ++ layout.rest n) :
    Position.behind before = layout.start n := by
  obtain rfl := List.append_cancel_right (h.symm.trans (layout.text_eq_append n))
  rw [Position.behind_eq_ofFront (paired_split _), join_split, start]

/-- However lexemes are laid out, they are read as the same datum, or they fail in the same way and
in front of the same lexeme or of the end. -/
theorem read_text_eq (options : ReadOptions) (a b : Layout lexemes) :
    (∃ d, read options a.text = .ok d ∧ read options b.text = .ok d) ∨
      ∃ fault, ∃ n ≤ lexemes.length, read options a.text = .error ⟨fault, a.start n⟩ ∧
        read options b.text = .error ⟨fault, b.start n⟩ := by
  have level : Level a b (skipBlanks (split a.text.toList)) (skipBlanks (split b.text.toList)) := by
    rw [a.skipBlanks_text, b.skipBlanks_text]
    exact ⟨0, Nat.zero_le _, rfl, rfl⟩
  rcases (corresponds options a b).read_agree rfl rfl level with
    ⟨d, d', ok, ok', alike⟩ | ⟨fault, before, before', _, _, left, front, front', fails, fails'⟩
  · obtain rfl := alike.eq
    exact .inl ⟨d, ok, ok'⟩
  · obtain ⟨n, bound, rfl, rfl⟩ := left
    rw [behind_eq_start front] at fails
    rw [behind_eq_start front'] at fails'
    exact .inr ⟨fault, n, bound, fails, fails'⟩

theorem read_text_eq_unclosed :
    let lexemes : List Lexeme := [.opening, .mark .unquote, .bare [.plain 'a' rfl] (by simp)]
    ∃ a b : Layout lexemes, a.text = "(,a" ∧ b.text = " ( ,\na\t" ∧
      ∃ fault, ∃ n ≤ 3, read ⟨" ", 2⟩ "(,a" = .error ⟨fault, a.start n⟩ ∧
        read ⟨" ", 2⟩ " ( ,\na\t" = .error ⟨fault, b.start n⟩ := by
  intro lexemes
  let a : Layout lexemes := {
    lead := []
    placed := [⟨.opening, [], by simp, by simp⟩, ⟨.mark .unquote, [], by simp, by simp⟩,
      ⟨.bare [.plain 'a' rfl] (by simp), [], by simp, by simp⟩]
    blank := by simp
    apart := by simp [Placed.Apart, Lexeme.RunsInto, BareItem.chars]
    lexemes_eq := rfl }
  have blank : ∀ c, isBlank c → ∀ c' ∈ [c], isBlank c' := fun c h => List.forall_mem_singleton.2 h
  let b : Layout lexemes := {
    lead := [' ']
    placed := [⟨.opening, [' '], blank ' ' (by decide), by simp⟩,
      ⟨.mark .unquote, ['\n'], blank '\n' (by decide), False.elim⟩,
      ⟨.bare [.plain 'a' rfl] (by simp), ['\t'], blank '\t' (by decide), by simp⟩]
    blank := blank ' ' (by decide)
    apart := by simp [Placed.Apart]
    lexemes_eq := rfl }
  have unclosed : read ⟨" ", 2⟩ "(,a" = .error ⟨.missingClosing none, ⟨0, 3⟩⟩ := by decide +kernel
  refine ⟨a, b, rfl, rfl, ?_⟩
  rcases read_text_eq ⟨" ", 2⟩ a b with ⟨d, ok, -⟩ | fails
  · cases unclosed.symm.trans ok
  · exact fails

end Layout

end SExpr

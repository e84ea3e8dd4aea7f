import SExpr.Proofs.Grammar.Acceptance
import Mathlib.Data.List.TakeWhile

/-!
# One text, one spelling

The first character of a lexeme tells its kind, and the kind tells where it ends.
-/

namespace SExpr

open TextUnit

inductive Lexeme.Kind where
  | opening
  | closing
  | mark
  | literal
  | bare
  deriving DecidableEq

namespace Lexeme

def kind : Lexeme → Kind
  | .opening => .opening
  | .closing => .closing
  | .mark _ => .mark
  | .literal _ => .literal
  | .bare _ _ => .bare

def Kind.ofFirst (c : Char) : Kind :=
  if stopsAtom c = false ∨ c = '\\' then .bare
  else if c = '(' then .opening
  else if c = ')' then .closing
  else if c = '"' then .literal
  else .mark

private theorem kind_eq_ofFirst (l : Lexeme) (after : List Char) :
    ∃ c more, l.spelling ++ after = c :: more ∧ l.kind = Kind.ofFirst c := by
  cases l with
  | opening => exact ⟨'(', _, rfl, by decide⟩
  | closing => exact ⟨')', _, rfl, by decide⟩
  | literal items => exact ⟨'"', _, rfl, (by decide : Kind.literal = Kind.ofFirst '"')⟩
  | mark mark =>
    cases mark with
    | quote => exact ⟨'\x27', _, rfl, by decide⟩
    | quasiquote => exact ⟨'\x60', _, rfl, by decide⟩
    | unquote => exact ⟨',', _, rfl, by decide⟩
    | unquoteSplicing => exact ⟨',', _, rfl, by decide⟩
  | bare items nonempty =>
    obtain ⟨c, more, cons_eq, begins⟩ := exists_cons_bareItems items nonempty after
    exact ⟨c, more, cons_eq, (if_pos begins).symm⟩

private theorem kind_eq_of_spelling_eq {l l' : Lexeme} {after after' : List Char}
    (same : l.spelling ++ after = l'.spelling ++ after') : l.kind = l'.kind := by
  obtain ⟨c, more, cons_eq, kind_eq⟩ := l.kind_eq_ofFirst after
  obtain ⟨c', more', cons_eq', kind_eq'⟩ := l'.kind_eq_ofFirst after'
  obtain ⟨rfl, -⟩ := List.cons.inj (cons_eq.symm.trans (same.trans cons_eq'))
  rw [kind_eq, kind_eq']

end Lexeme

section Items

private theorem split_inj {text text' : List Char} (h : split text = split text') :
    text = text' := by
  rw [← join_split text, h, join_split]

private theorem literalItems_unique {items items' : List LiteralItem} {after after' : List Char}
    (same : items.flatMap LiteralItem.chars ++ '"' :: after =
      items'.flatMap LiteralItem.chars ++ '"' :: after') : items = items' ∧ after = after' := by
  -- A quote ends the items and a backslash begins an escaped one; a plain one begins with neither.
  induction items generalizing items' with
  | nil =>
    cases items' with
    | nil => exact ⟨rfl, (List.cons.inj same).2⟩
    | cons item items' =>
      cases item with
      | plain c h => exact absurd (List.cons.inj same).1.symm h.1
      | escaped c => exact absurd (List.cons.inj same).1 (by decide)
  | cons item items ih =>
    cases items' with
    | nil =>
      cases item with
      | plain c h => exact absurd (List.cons.inj same).1 h.1
      | escaped c => exact absurd (List.cons.inj same).1 (by decide)
    | cons item' items' =>
      simp only [List.flatMap_cons, List.append_assoc] at same
      cases item with
      | plain c h =>
        cases item' with
        | plain c' h' =>
          obtain ⟨rfl, rest_eq⟩ := List.cons.inj same
          obtain ⟨rfl, after_eq⟩ := ih rest_eq
          exact ⟨rfl, after_eq⟩
        | escaped c' => exact absurd (List.cons.inj same).1 h.2
      | escaped c =>
        cases item' with
        | plain c' h' => exact absurd (List.cons.inj same).1.symm h'.2
        | escaped c' =>
          obtain ⟨rfl, rest_eq⟩ := List.cons.inj (List.cons.inj same).2
          obtain ⟨rfl, after_eq⟩ := ih rest_eq
          exact ⟨rfl, after_eq⟩

/-- What may follow the items of a bare atom: where it comes to its end, or a backslash that ends
the text. -/
def EndsBare (items : List BareItem) (behind : List Char) : Prop :=
  BareEnd items behind ∨ behind = ['\\']

private theorem EndsBare.tail {item : BareItem} {items : List BareItem} {behind : List Char}
    (ends : EndsBare (item :: items) behind) : EndsBare items behind :=
  ends.imp_left fun ends => ⟨ends.1, fun last => ends.2 (by simp [List.getLast?_cons, last])⟩

private theorem EndsBare.ne_cons {items : List BareItem} {behind : List Char}
    (ends : EndsBare items behind) (item : BareItem) (items' : List BareItem)
    (behind' : List Char) :
    behind ≠ (item :: items').flatMap BareItem.chars ++ behind' := by
  rintro rfl
  rcases ends with ends | backslash
  · cases item with
    | plain c h => exact absurd (ends.1 c rfl).1 (by simp [h])
    | escaped u => exact (ends.1 '\\' rfl).2 rfl
  · cases item with
    | plain c h =>
      obtain rfl : c = '\\' := (List.cons.inj backslash).1
      exact absurd h (by decide)
    | escaped u =>
      have nothing : (u.chars ++ items'.flatMap BareItem.chars) ++ behind' = [] :=
        (List.cons.inj backslash).2
      exact u.chars_ne_nil (List.append_eq_nil_iff.1 (List.append_eq_nil_iff.1 nothing).1).1

private theorem EndsBare.apart {u : TextUnit} {items : List BareItem} {behind : List Char}
    (ends : EndsBare (.escaped u :: items) behind) (return_eq : u = .char '\r') :
    (items.flatMap BareItem.chars ++ behind).head? ≠ some '\n' := by
  subst return_eq
  refine head?_behind_return fun last => ?_
  rcases ends with ends | rfl
  · exact ends.2 last
  · decide

private theorem bareItems_unique {items items' : List BareItem} {behind behind' : List Char}
    (ends : EndsBare items behind) (ends' : EndsBare items' behind')
    (same : items.flatMap BareItem.chars ++ behind = items'.flatMap BareItem.chars ++ behind') :
    items = items' ∧ behind = behind' := by
  induction items generalizing items' with
  | nil =>
    cases items' with
    | nil => exact ⟨rfl, same⟩
    | cons item items' => exact absurd same (ends.ne_cons item items' behind')
  | cons item items ih =>
    cases items' with
    | nil => exact absurd same.symm (ends'.ne_cons item items behind)
    | cons item' items' =>
      simp only [List.flatMap_cons, List.append_assoc] at same
      cases item with
      | plain c h =>
        cases item' with
        | plain c' h' =>
          obtain ⟨rfl, rest_eq⟩ := List.cons.inj same
          obtain ⟨rfl, behind_eq⟩ := ih ends.tail ends'.tail rest_eq
          exact ⟨rfl, behind_eq⟩
        | escaped u' =>
          obtain rfl : c = '\\' := (List.cons.inj same).1
          exact absurd h (by decide)
      | escaped u =>
        cases item' with
        | plain c' h' =>
          obtain rfl : '\\' = c' := (List.cons.inj same).1
          exact absurd h' (by decide)
        | escaped u' =>
          -- A unit may be two characters, so the rest is compared unit by unit.
          have chars_eq : u.chars ++ (items.flatMap BareItem.chars ++ behind) =
              u'.chars ++ (items'.flatMap BareItem.chars ++ behind') := (List.cons.inj same).2
          have units_eq := congrArg split chars_eq
          rw [split_chars_append ends.apart, split_chars_append ends'.apart] at units_eq
          obtain ⟨rfl, rest_eq⟩ := List.cons.inj units_eq
          obtain ⟨rfl, behind_eq⟩ := ih ends.tail ends'.tail (split_inj rest_eq)
          exact ⟨rfl, behind_eq⟩

end Items

def Lexeme.StopsBefore (l : Lexeme) (behind : List Char) : Prop :=
  l.EndsBefore behind ∨ l.TakesBackslash ∧ behind = ['\\']

/-- A lexeme that stops before what is behind it cannot be taken for another one. -/
theorem Lexeme.spelling_unique {l l' : Lexeme} {after after' : List Char}
    (stops : l.StopsBefore after) (stops' : l'.StopsBefore after')
    (same : l.spelling ++ after = l'.spelling ++ after') : l = l' ∧ after = after' := by
  have kind_eq := kind_eq_of_spelling_eq same
  cases l with
  | opening =>
    cases l' <;> first | exact ⟨rfl, (List.cons.inj same).2⟩ | cases kind_eq
  | closing =>
    cases l' <;> first | exact ⟨rfl, (List.cons.inj same).2⟩ | cases kind_eq
  | mark mark =>
    cases l' with
    | mark mark' =>
      have front := mark?_spelling (stops.resolve_right And.left)
      rw [same, mark?_spelling (stops'.resolve_right And.left), Option.some.injEq,
        Prod.mk.injEq] at front
      exact ⟨congrArg _ front.1.symm, split_inj front.2.symm⟩
    | _ => cases kind_eq
  | literal items =>
    cases l' with
    | literal items' =>
      obtain ⟨rfl, after_eq⟩ := @literalItems_unique items items' after after'
        (by simpa [spelling] using same)
      exact ⟨rfl, after_eq⟩
    | _ => cases kind_eq
  | bare items nonempty =>
    cases l' with
    | bare items' nonempty' =>
      obtain ⟨rfl, after_eq⟩ :=
        bareItems_unique (stops.imp_right And.right) (stops'.imp_right And.right) same
      exact ⟨rfl, after_eq⟩
    | _ => cases kind_eq

private theorem Lexeme.TakesBackslash.not_endsBefore {l : Lexeme} (takes : l.TakesBackslash) :
    ¬l.EndsBefore ['\\'] := by
  obtain ⟨items, nonempty, rfl⟩ := takes.eq_bare
  exact fun ends => (ends.1 '\\' rfl).2 rfl

private theorem dropWhile_lexeme {gap : List Char} (blank : ∀ c ∈ gap, isBlank c) (l : Lexeme)
    (after : List Char) :
    (gap ++ (l.spelling ++ after)).dropWhile isBlank = l.spelling ++ after := by
  rw [List.dropWhile_append_of_pos blank]
  obtain ⟨c, more, cons_eq, -⟩ := l.kind_eq_ofFirst after
  have notBlank := l.head?_spelling after c (by rw [cons_eq]; rfl)
  rw [cons_eq, List.dropWhile_cons_of_neg (by simp [notBlank])]

private theorem Scans.exists_first {l : Lexeme} {lexemes : List Lexeme} {text : List Char}
    (scans : Scans (l :: lexemes) text []) :
    ∃ after, text.dropWhile isBlank = l.spelling ++ after ∧
      (l.EndsBefore after ∧ Scans lexemes after [] ∨
        (l.TakesBackslash ∧ after = ['\\']) ∧ lexemes = []) := by
  cases scans with
  | @lexeme gap after _ _ _ blank ends others =>
    exact ⟨after, dropWhile_lexeme blank l after, .inl ⟨ends, others⟩⟩
  | @cut gap items nonempty blank =>
    exact ⟨['\\'], dropWhile_lexeme blank (.bare items nonempty) _, .inr ⟨⟨trivial, rfl⟩, rfl⟩⟩

private theorem Scans.dropWhile_eq_nil {text : List Char} (scans : Scans [] text []) :
    text.dropWhile isBlank = [] := by
  cases scans with
  | @done gap _ blank =>
    rw [List.append_nil]
    exact List.dropWhile_eq_nil_iff.2 blank

private theorem Scans.unique {lexemes lexemes' : List Lexeme} {text : List Char}
    (scans : Scans lexemes text []) (scans' : Scans lexemes' text []) : lexemes = lexemes' := by
  have not_nil : ∀ (l : Lexeme) (after : List Char), l.spelling ++ after ≠ [] := fun l after nil =>
    l.spelling_ne_nil (List.append_eq_nil_iff.1 nil).1
  induction lexemes generalizing lexemes' text with
  | nil =>
    cases lexemes' with
    | nil => rfl
    | cons l' lexemes' =>
      obtain ⟨after', front', -⟩ := scans'.exists_first
      exact absurd (front'.symm.trans scans.dropWhile_eq_nil) (not_nil l' after')
  | cons l lexemes ih =>
    obtain ⟨after, front, scanned⟩ := scans.exists_first
    cases lexemes' with
    | nil => exact absurd (front.symm.trans scans'.dropWhile_eq_nil) (not_nil l after)
    | cons l' lexemes' =>
      obtain ⟨after', front', scanned'⟩ := scans'.exists_first
      obtain ⟨rfl, rfl⟩ := Lexeme.spelling_unique (scanned.imp And.left And.left)
        (scanned'.imp And.left And.left) (front.symm.trans front')
      rcases scanned with ⟨ends, others⟩ | ⟨⟨takes, rfl⟩, rfl⟩
      · rcases scanned' with ⟨-, others'⟩ | ⟨⟨takes', rfl⟩, -⟩
        · rw [ih others others']
        · exact absurd ends takes'.not_endsBefore
      · rcases scanned' with ⟨ends', -⟩ | ⟨-, rfl⟩
        · exact absurd ends' takes.not_endsBefore
        · rfl

private theorem Lexeme.spelling_ne_backslash (l : Lexeme) (after : List Char) :
    l.spelling ++ after ≠ ['\\'] := by
  intro same
  obtain ⟨c, more, cons_eq, kind_eq⟩ := l.kind_eq_ofFirst after
  obtain ⟨rfl, -⟩ := List.cons.inj (cons_eq.symm.trans same)
  cases l with
  | bare items nonempty =>
    cases items with
    | nil => exact nonempty rfl
    | cons item items =>
      have nothing : EndsBare [] ['\\'] := .inr rfl
      exact nothing.ne_cons item items after same.symm
  | _ =>
    rw [show Kind.ofFirst '\\' = .bare by decide] at kind_eq
    cases kind_eq

/-- The lexemes of a text are the only ones that it spells. -/
theorem Spells.unique {lexemes lexemes' : List Lexeme} {text : List Char}
    (spells : Spells lexemes text) (spells' : Spells lexemes' text) : lexemes = lexemes' := by
  have nil_of_nil : ∀ {lexemes}, Spells lexemes text → Spells [] text → lexemes = [] := by
    intro lexemes spells nothing
    cases lexemes with
    | nil => rfl
    | cons l lexemes =>
      exfalso
      obtain ⟨after, front, -⟩ := ((spells_iff_scans (by simp)).1 spells).exists_first
      have absent := spells_nil_iff.1 nothing
      rw [skipBlanks_split, front] at absent
      generalize units_eq : split (l.spelling ++ after) = units at absent
      cases absent with
      | atEnd => exact l.spelling_ne_nil (List.append_eq_nil_iff.1 (split_eq_nil units_eq)).1
      | backslash => exact l.spelling_ne_backslash after (split_inj units_eq)
  by_cases nil : lexemes = []
  · subst nil
    exact (nil_of_nil spells' spells).symm
  · by_cases nil' : lexemes' = []
    · subst nil'
      exact nil_of_nil spells spells'
    · exact ((spells_iff_scans nil).1 spells).unique ((spells_iff_scans nil').1 spells')

end SExpr

import SExpr.Proofs.EmptyLiteral
import SExpr.Proofs.Grammar.Uniqueness
import SExpr.Report
import Mathlib.Order.Bounds.Basic

/-!
# The size of what is read

Every mark stands for a list and for the atom at the head of it, and is open until its expression
ends.
-/

namespace SExpr

section Counts

def tally (kind : Lexeme.Kind) (lexemes : List Lexeme) : Nat :=
  (lexemes.map Lexeme.kind).count kind

private theorem tally_append (kind : Lexeme.Kind) (lexemes more : List Lexeme) :
    tally kind (lexemes ++ more) = tally kind lexemes + tally kind more := by
  rw [tally, List.map_append, List.count_append]
  rfl

/-- The census with the lists and atoms added that the lexemes stand for. -/
def Datum.Census.plus (census : Datum.Census) (lexemes : List Lexeme) : Datum.Census where
  lists := census.lists + (tally .opening lexemes + tally .mark lexemes)
  atoms := census.atoms + (tally .literal lexemes + tally .bare lexemes + tally .mark lexemes)

private theorem Datum.Census.plus_append (census : Datum.Census) (lexemes more : List Lexeme) :
    census.plus (lexemes ++ more) = (census.plus lexemes).plus more := by
  simp only [plus, tally_append, Datum.Census.mk.injEq]
  omega

private theorem countItems_eq_plus {parts : List (List Lexeme × Datum)}
    (items : ∀ part ∈ parts, ∀ census, part.2.count census = census.plus part.1)
    (census : Datum.Census) :
    Datum.countItems census (parts.map Prod.snd) = census.plus (parts.flatMap Prod.fst) := by
  induction parts generalizing census with
  | nil => rfl
  | cons part parts ih =>
    obtain ⟨first, items⟩ := List.forall_mem_cons.1 items
    rw [List.map_cons, List.flatMap_cons, Datum.countItems, first, ih items,
      Datum.Census.plus_append]

private theorem Derives.count_eq_plus {options : ReadOptions} {lexemes : List Lexeme} {d : Datum}
    (derives : Derives options lexemes d) (census : Datum.Census) :
    d.count census = census.plus lexemes := by
  induction derives generalizing census with
  | literal items => rfl
  | bare items nonempty => rfl
  | @marked mark lexemes d inner ih =>
    have counted : (Datum.list [.atom mark.name, d]).count census =
        d.count ⟨census.lists + 1, census.atoms + 1⟩ := rfl
    have plus_eq : census.plus (.mark mark :: lexemes) =
        Datum.Census.plus ⟨census.lists + 1, census.atoms + 1⟩ lexemes :=
      census.plus_append [.mark mark] lexemes
    rw [counted, plus_eq, ih]
  | list parts items ih =>
    have plus_eq : census.plus (.opening :: parts.flatMap Prod.fst ++ [.closing]) =
        Datum.Census.plus ⟨census.lists + 1, census.atoms⟩ (parts.flatMap Prod.fst) := by
      rw [Datum.Census.plus_append]
      exact census.plus_append [.opening] _
    rw [plus_eq, Datum.count]
    exact countItems_eq_plus ih _

end Counts

section Levels

inductive Opened where
  | list
  | marked
  deriving DecidableEq

/-- What is still open when an expression has ended: the marks right in front of it have ended with
it. -/
def endExpression (opened : List Opened) : List Opened :=
  opened.dropWhile (· = .marked)

def Lexeme.openBehind (opened : List Opened) : Lexeme → List Opened
  | .opening => .list :: opened
  | .mark _ => .marked :: opened
  | .closing => endExpression opened.tail
  | .literal _ => endExpression opened
  | .bare _ _ => endExpression opened

/-- The most lists and marked expressions that are open at once, from a place on where `opened`
is. -/
def mostOpen (opened : List Opened) : List Lexeme → Nat
  | [] => opened.length
  | l :: lexemes => max opened.length (mostOpen (l.openBehind opened) lexemes)

example : mostOpen [] [.opening, .mark .quote, .bare [.plain 'a' rfl] (by simp),
    .mark .quote, .opening, .closing, .closing] = 3 := by decide

private theorem length_le_mostOpen (opened : List Opened) (lexemes : List Lexeme) :
    opened.length ≤ mostOpen opened lexemes := by
  cases lexemes with
  | nil => exact Nat.le_refl _
  | cons l lexemes => exact Nat.le_max_left ..

private theorem Datum.deepest_eq_max (bound : Nat) (items : List Datum) :
    deepest bound items = max bound (deepest 0 items) := by
  induction items generalizing bound with
  | nil => simp [deepest]
  | cons d items ih =>
    rw [deepest, ih, deepest, ih (max 0 d.depth)]
    omega

private theorem Datum.depth_list_cons (d : Datum) (items : List Datum) :
    (list (d :: items)).depth = max (d.depth + 1) (list items).depth := by
  rw [depth_list, depth_list, deepest, deepest_eq_max]
  omega

private theorem mostOpen_items {parts : List (List Lexeme × Datum)} (opened : List Opened)
    (items : ∀ part ∈ parts, ∀ opened more,
      mostOpen opened (part.1 ++ more) =
        max (opened.length + part.2.depth) (mostOpen (endExpression opened) more))
    (more : List Lexeme) :
    mostOpen (.list :: opened) (parts.flatMap Prod.fst ++ more) =
      max (opened.length + (Datum.list (parts.map Prod.snd)).depth)
        (mostOpen (.list :: opened) more) := by
  have inside : endExpression (.list :: opened) = .list :: opened := rfl
  induction parts with
  | nil =>
    have le := length_le_mostOpen (.list :: opened) more
    rw [List.length_cons] at le
    simp only [List.map_nil, Datum.depth_list, Datum.deepest, List.flatMap_nil, List.nil_append]
    omega
  | cons part parts ih =>
    obtain ⟨first, items⟩ := List.forall_mem_cons.1 items
    rw [List.flatMap_cons, List.append_assoc, first, inside, ih items, List.map_cons,
      Datum.depth_list_cons, List.length_cons]
    omega

/-- An expression opens as many levels on top of those that are open as its datum is deep. -/
theorem Derives.mostOpen_append {options : ReadOptions} {lexemes : List Lexeme} {d : Datum}
    (derives : Derives options lexemes d) (opened : List Opened) (more : List Lexeme) :
    mostOpen opened (lexemes ++ more) =
      max (opened.length + d.depth) (mostOpen (endExpression opened) more) := by
  induction derives generalizing opened more with
  | literal items => rw [Datum.depth_atom]; rfl
  | bare items nonempty => rw [Datum.depth_atom]; rfl
  | @marked mark lexemes d inner ih =>
    have step : mostOpen opened (.mark mark :: lexemes ++ more) =
        max opened.length (mostOpen (.marked :: opened) (lexemes ++ more)) := rfl
    have ended : endExpression (.marked :: opened) = endExpression opened := rfl
    rw [step, ih, ended, ← Datum.marked_eq, Datum.depth_marked, List.length_cons]
    omega
  | list parts items ih =>
    have step : mostOpen opened (.opening :: parts.flatMap Prod.fst ++ [.closing] ++ more) =
        max opened.length
          (mostOpen (.list :: opened) (parts.flatMap Prod.fst ++ (.closing :: more))) := by
      rw [List.append_assoc]
      rfl
    have closing : mostOpen (.list :: opened) (.closing :: more) =
        max (opened.length + 1) (mostOpen (endExpression opened) more) := rfl
    have deep := Datum.depth_list (parts.map Prod.snd)
    rw [step, mostOpen_items opened ih, closing]
    omega

end Levels

section Balance

/-- How the next character of a text is meant: as it stands, or as part of an atom. -/
inductive Meant where
  | plainly
  | escaped
  | quoted
  | escapedQuoted
  deriving DecidableEq

def Meant.behind (c : Char) : Meant → Meant
  | .plainly => if c = '"' then .quoted else if c = '\\' then .escaped else .plainly
  | .escaped => .plainly
  | .quoted => if c = '"' then .plainly else if c = '\\' then .escapedQuoted else .quoted
  | .escapedQuoted => .quoted

def Meant.step (c : Char) (meant : Meant) : Int :=
  if meant = .plainly then (if c = '(' then 1 else if c = ')' then -1 else 0) else 0

/-- How many more opening parentheses than closing ones a text has. -/
def balance (meant : Meant) : List Char → Int
  | [] => 0
  | c :: text => meant.step c + balance (meant.behind c) text

example : balance .plainly "(a \\( \"(\\\"((\" b".toList = 1 := by decide

/-- The highest balance that a front of the text has. -/
def highest (meant : Meant) : List Char → Int
  | [] => 0
  | c :: text => max 0 (meant.step c + highest (meant.behind c) text)

private theorem highest_nonneg (meant : Meant) (text : List Char) : 0 ≤ highest meant text := by
  cases text with
  | nil => exact le_refl 0
  | cons c text => exact le_max_left ..

private theorem isGreatest_highest (meant : Meant) (text : List Char) :
    IsGreatest {n | ∃ front, front <+: text ∧ balance meant front = n} (highest meant text) := by
  induction text generalizing meant with
  | nil =>
    refine ⟨⟨[], List.prefix_rfl, rfl⟩, ?_⟩
    rintro _ ⟨front, isFront, rfl⟩
    rw [List.prefix_nil.1 isFront]
    exact le_refl 0
  | cons c text ih =>
    obtain ⟨⟨front, isFront, balance_eq⟩, upper⟩ := ih (meant.behind c)
    constructor
    · by_cases up : 0 ≤ meant.step c + highest (meant.behind c) text
      · refine ⟨c :: front, List.cons_prefix_cons.2 ⟨rfl, isFront⟩, ?_⟩
        rw [balance, balance_eq, highest, max_eq_right up]
      · refine ⟨[], List.nil_prefix, ?_⟩
        rw [balance, highest, max_eq_left (by omega)]
    · rintro _ ⟨front, isFront, rfl⟩
      rcases List.prefix_cons_iff.1 isFront with rfl | ⟨front, rfl, isFront⟩
      · exact highest_nonneg ..
      · have le := upper ⟨front, (List.cons_prefix_cons.1 isFront).2, rfl⟩
        rw [balance, highest]
        omega

private theorem highest_cons {meant : Meant} {c : Char} (level : meant.step c = 0)
    (text : List Char) :
    highest meant (c :: text) = highest (meant.behind c) text := by
  rw [highest, level, Int.zero_add, max_eq_right (highest_nonneg ..)]

private theorem highest_plainly {c : Char} (notQuote : c ≠ '"') (notBackslash : c ≠ '\\')
    (notOpening : c ≠ '(') (notClosing : c ≠ ')') (text : List Char) :
    highest .plainly (c :: text) = highest .plainly text := by
  rw [highest_cons (by simp [Meant.step, notOpening, notClosing])]
  simp [Meant.behind, notQuote, notBackslash]

private theorem highest_escape (c : Char) (text : List Char) :
    highest .plainly ('\\' :: c :: text) = highest .plainly text := by
  rw [highest_cons (by decide), highest_cons (by simp [Meant.step, Meant.behind])]
  rfl

private theorem highest_gap {gap : List Char} (blank : ∀ c ∈ gap, isBlank c) (text : List Char) :
    highest .plainly (gap ++ text) = highest .plainly text := by
  induction gap with
  | nil => rfl
  | cons c gap ih =>
    obtain ⟨blank_first, blank⟩ := List.forall_mem_cons.1 blank
    have ne : ∀ stop, isBlank stop = false → c ≠ stop := by
      rintro stop notBlank rfl
      rw [blank_first] at notBlank
      cases notBlank
    rw [List.cons_append, highest_plainly (ne _ (by decide)) (ne _ (by decide)) (ne _ (by decide))
      (ne _ (by decide)), ih blank]

private theorem highest_literalItems (items : List LiteralItem) (after : List Char) :
    highest .quoted (items.flatMap LiteralItem.chars ++ '"' :: after) = highest .plainly after := by
  induction items with
  | nil => exact highest_cons (by decide) after
  | cons item items ih =>
    rw [List.flatMap_cons, List.append_assoc]
    cases item with
    | plain c h =>
      have inside : Meant.quoted.behind c = .quoted := by simp [Meant.behind, h]
      refine (highest_cons (by simp [Meant.step]) _).trans ?_
      rw [inside]
      exact ih
    | escaped c =>
      -- The backslash and the character behind it, neither of which counts.
      refine (highest_cons (by decide) _).trans ?_
      exact (highest_cons (by simp [Meant.step, Meant.behind]) _).trans ih

private theorem highest_bareItems (items : List BareItem) (after : List Char) :
    highest .plainly (items.flatMap BareItem.chars ++ after) = highest .plainly after := by
  induction items with
  | nil => rfl
  | cons item items ih =>
    rw [List.flatMap_cons, List.append_assoc]
    cases item with
    | plain c h =>
      simp only [stopsAtom, Bool.or_eq_false_iff, beq_eq_false_iff_ne] at h
      obtain ⟨⟨⟨⟨⟨-, notBackslash⟩, notQuote⟩, notOpening⟩, notClosing⟩, -⟩ := h
      exact (highest_plainly notQuote notBackslash notOpening notClosing _).trans ih
    | escaped u =>
      cases u with
      | char c => exact (highest_escape c _).trans ih
      | crlf =>
        refine (highest_escape '\r' _).trans ?_
        exact (highest_plainly (by decide) (by decide) (by decide) (by decide) _).trans ih

def Lexeme.step : Lexeme → Int
  | .opening => 1
  | .closing => -1
  | _ => 0

/-- A lexeme counts as a whole. -/
theorem highest_spelling (l : Lexeme) (after : List Char) :
    highest .plainly (l.spelling ++ after) = max 0 (l.step + highest .plainly after) := by
  have same : highest .plainly after = max 0 (0 + highest .plainly after) := by
    rw [Int.zero_add, max_eq_right (highest_nonneg ..)]
  cases l with
  | opening => rfl
  | closing => rfl
  | mark mark =>
    refine Eq.trans ?_ same
    cases mark with
    | unquoteSplicing =>
      refine (highest_plainly (by decide) (by decide) (by decide) (by decide) _).trans ?_
      exact highest_plainly (by decide) (by decide) (by decide) (by decide) _
    | _ => exact highest_plainly (by decide) (by decide) (by decide) (by decide) _
  | literal items =>
    refine Eq.trans ?_ same
    rw [Lexeme.spelling, List.append_assoc]
    exact (highest_cons (by decide) _).trans (highest_literalItems items after)
  | bare items nonempty => exact (highest_bareItems items after).trans same

def rise (lexemes : List Lexeme) (behind : Int) : Int :=
  lexemes.foldr (fun l n => max 0 (l.step + n)) behind

private theorem Scans.highest_eq_rise {lexemes : List Lexeme} {text rest : List Char}
    (scans : Scans lexemes text rest) :
    highest .plainly text = rise lexemes (highest .plainly rest) := by
  induction scans with
  | done rest blank => exact highest_gap blank rest
  | @lexeme gap after rest l lexemes blank ends others ih =>
    rw [highest_gap blank, highest_spelling, ih]
    rfl
  | cut items nonempty blank =>
    rw [highest_gap blank, highest_bareItems]
    rfl

private theorem rise_append (lexemes more : List Lexeme) (behind : Int) :
    rise (lexemes ++ more) behind = rise lexemes (rise more behind) :=
  List.foldr_append

private theorem rise_items {parts : List (List Lexeme × Datum)}
    (items : ∀ part ∈ parts, ∀ behind : Int, 0 ≤ behind →
      rise part.1 behind = max (part.2.depth : Int) behind) {behind : Int} (nonneg : 0 ≤ behind) :
    rise (parts.flatMap Prod.fst) behind + 1 =
      max ((Datum.list (parts.map Prod.snd)).depth : Int) (behind + 1) := by
  induction parts with
  | nil =>
    simp only [List.flatMap_nil, List.map_nil, Datum.depth_list, Datum.deepest, rise,
      List.foldr_nil]
    omega
  | cons part parts ih =>
    obtain ⟨first, items⟩ := List.forall_mem_cons.1 items
    have later := ih items
    have positive := Datum.depth_list (parts.map Prod.snd)
    rw [List.flatMap_cons, rise_append, first _ (by omega), List.map_cons, Datum.depth_list_cons]
    omega

/-- An expression without marks rises as high as its datum is deep. -/
theorem Derives.rise_eq {options : ReadOptions} {lexemes : List Lexeme} {d : Datum}
    (derives : Derives options lexemes d) (unmarked : ∀ mark, .mark mark ∉ lexemes) {behind : Int}
    (nonneg : 0 ≤ behind) : rise lexemes behind = max (d.depth : Int) behind := by
  induction derives generalizing behind with
  | literal items =>
    rw [Datum.depth_atom]
    exact congrArg (max 0) (Int.zero_add behind)
  | bare items nonempty =>
    rw [Datum.depth_atom]
    exact congrArg (max 0) (Int.zero_add behind)
  | @marked mark lexemes d inner ih => exact absurd (List.mem_cons_self ..) (unmarked mark)
  | list parts items ih =>
    have unmarked_part : ∀ part ∈ parts, ∀ mark, .mark mark ∉ part.1 := by
      intro part member mark inside
      apply unmarked mark
      have among := List.mem_flatMap.2 ⟨part, member, inside⟩
      exact List.mem_append_left _ (List.mem_cons_of_mem _ among)
    have items_rise : ∀ part ∈ parts, ∀ behind : Int, 0 ≤ behind →
        rise part.1 behind = max (part.2.depth : Int) behind := fun part member behind nonneg =>
      ih part member (unmarked_part part member) nonneg
    have rises := rise_items items_rise (le_max_left 0 (-1 + behind))
    have positive := Datum.depth_list (parts.map Prod.snd)
    -- One up in front of the items and one down behind them.
    have step : rise (.opening :: parts.flatMap Prod.fst ++ [.closing]) behind =
        max 0 (1 + rise (parts.flatMap Prod.fst) (max 0 (-1 + behind))) :=
      rise_append (.opening :: parts.flatMap Prod.fst) [.closing] behind
    rw [step]
    omega

end Balance

/-- The lists, the atoms and the depth of a datum that is read are those of its text, and are what a
report says. Where the text has no marks, the depth is the most that opening parentheses are ahead
of closing ones. -/
theorem sizes_of_read {options : ReadOptions} {text : String} {d : Datum}
    (notVacant : ¬IsVacant text) (ok : read options text = .ok d) :
    ∃ lexemes, (∀ lexemes', Spells lexemes' text.toList ↔ lexemes' = lexemes) ∧
      let lists := tally .opening lexemes + tally .mark lexemes
      let atoms := tally .literal lexemes + tally .bare lexemes + tally .mark lexemes
      d.census = ⟨lists, atoms⟩ ∧ d.depth = mostOpen [] lexemes ∧
        (tally .mark lexemes = 0 →
          IsGreatest {n | ∃ front, front <+: text.toList ∧ balance .plainly front = n} d.depth) ∧
        Report.summary d = s!";; head = {quoted d.headText}, depth = {mostOpen [] lexemes}, " ++
          s!"lists = {lists}, atoms = {atoms}\n" := by
  obtain ⟨lexemes, spells, document, -⟩ := (read_eq_ok_iff options text d).1 ok
  have nonempty : lexemes ≠ [] := by
    rintro rfl
    exact notVacant (isVacant_iff.2 (spells_nil_iff.1 spells))
  have derives : Derives options lexemes d := document.resolve_left fun h => nonempty h.1
  have census_eq : d.census = ⟨_, _⟩ := derives.count_eq_plus ⟨0, 0⟩
  simp only [Nat.zero_add] at census_eq
  have depth_eq : d.depth = mostOpen [] lexemes := by
    have most := derives.mostOpen_append [] []
    simpa [mostOpen, endExpression] using most.symm
  refine ⟨lexemes, ?_, census_eq, depth_eq, ?_, ?_⟩
  · intro lexemes'
    exact ⟨fun spells' => spells'.unique spells, fun same => same ▸ spells⟩
  · intro unmarked
    have absent : ∀ mark, .mark mark ∉ lexemes := fun mark member =>
      List.count_eq_zero.1 unmarked (List.mem_map_of_mem member)
    have highest_eq := ((spells_iff_scans nonempty).1 spells).highest_eq_rise
    rw [derives.rise_eq absent (highest_nonneg ..)] at highest_eq
    have depth_eq : (d.depth : Int) = highest .plainly text.toList := by
      rw [highest_eq]
      exact (max_eq_left (Int.natCast_nonneg _)).symm
    rw [depth_eq]
    exact isGreatest_highest .plainly text.toList
  · rw [Report.summary, census_eq, depth_eq]

theorem sizes_of_read_marked :
    let text := "('a (\"(\") \\))"
    let d : Datum :=
      .list [.list [.atom "quote", .atom "a"], .list [.atom "("], .atom ")"]
    ¬IsVacant text ∧ read ⟨" ", 2⟩ text = .ok d ∧
      ∃ lexemes, Spells lexemes text.toList ∧ tally .opening lexemes + tally .mark lexemes = 3 ∧
        tally .literal lexemes + tally .bare lexemes + tally .mark lexemes = 4 ∧
          mostOpen [] lexemes = 2 := by
  intro text d
  have notVacant : ¬IsVacant text :=
    not_isVacant_of_mem (c := '(') (by decide) (by decide) (by decide)
  have ok : read ⟨" ", 2⟩ text = .ok d := by decide +kernel
  obtain ⟨lexemes, spelled, census_eq, depth_eq, -⟩ := sizes_of_read notVacant ok
  have census_eq := Datum.Census.mk.inj census_eq
  exact ⟨notVacant, ok, lexemes, (spelled lexemes).2 rfl, census_eq.1.symm, census_eq.2.symm,
    depth_eq.symm⟩

end SExpr

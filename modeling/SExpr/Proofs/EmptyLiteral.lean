import SExpr.Proofs.Grammar.Leaves

namespace SExpr

open TextUnit

def fillEmpty (placeholder text : String) : String :=
  if text = "" then placeholder else text

/-- Whether a text has nothing but blanks in it, and a lone backslash behind them or not. -/
def IsVacant (text : String) : Prop :=
  ∃ gap, (∀ c ∈ gap, isBlank c) ∧ (text.toList = gap ∨ text.toList = gap ++ ['\\'])

section Fill

variable {placeholder text : String}

private theorem fillEmpty_empty (placeholder : String) : fillEmpty placeholder "" = placeholder :=
  if_pos rfl

private theorem fillEmpty_of_ne (h : text ≠ "") : fillEmpty placeholder text = text :=
  if_neg h

private theorem fillEmpty_ne_empty (h : placeholder ≠ "") : fillEmpty placeholder text ≠ "" := by
  by_cases empty : text = ""
  · rwa [empty, fillEmpty_empty]
  · rwa [fillEmpty_of_ne empty]

private theorem fillEmpty_ofList {chars : List Char} (h : chars ≠ []) :
    fillEmpty placeholder (String.ofList chars) = String.ofList chars := by
  apply fillEmpty_of_ne
  simpa using h

private theorem fillEmpty_literalText (placeholder : String) (maxDepth : Nat)
    (content : List Char) :
    fillEmpty placeholder (ReadOptions.literalText ⟨"", maxDepth⟩ content) =
      ReadOptions.literalText ⟨placeholder, maxDepth⟩ content := by
  cases content with
  | nil => exact fillEmpty_empty placeholder
  | cons c content => exact fillEmpty_ofList (List.cons_ne_nil c content)

end Fill

theorem isVacant_iff {text : String} :
    IsVacant text ↔ Absent (skipBlanks (split text.toList)) [] := by
  rw [← spells_nil_iff]
  constructor
  · rintro ⟨gap, blank, text_eq | text_eq⟩
    · exact ⟨gap, [], [], blank, .nil, .inl rfl, rfl, by simp [text_eq]⟩
    · exact ⟨gap, [], ['\\'], blank, .nil, .inr ⟨rfl, by simp⟩, rfl, by simp [text_eq]⟩
  · rintro ⟨gap, placed, final, blank, -, ending, nil_eq, text_eq⟩
    obtain rfl := List.map_eq_nil_iff.1 nil_eq.symm
    rw [List.flatMap_nil, List.append_nil] at text_eq
    rcases ending with rfl | ⟨rfl, -⟩
    · exact ⟨gap, blank, .inl (by rw [text_eq, List.append_nil])⟩
    · exact ⟨gap, blank, .inr text_eq⟩

theorem not_isVacant_of_mem {text : String} {c : Char} (inside : c ∈ text.toList)
    (notBlank : isBlank c = false) (notBackslash : c ≠ '\\') : ¬IsVacant text := by
  rintro ⟨gap, blank, text_eq | text_eq⟩
  · rw [text_eq] at inside
    exact absurd (blank c inside) (by simp [notBlank])
  · rw [text_eq, List.mem_append, List.mem_singleton] at inside
    exact absurd (blank c (inside.resolve_right notBackslash)) (by simp [notBlank])

private theorem fillEmpty_corresponds (placeholder : String) (maxDepth : Nat) :
    Corresponds ⟨"", maxDepth⟩ ⟨placeholder, maxDepth⟩ (fillEmpty placeholder · = ·) Eq where
  name mark := fillEmpty_of_ne (by cases mark <;> decide)
  peek? same := congrArg SExpr.peek? same
  bracket _ same := congrArg skipBlanks (List.cons.inj same).2
  mark? same marked := ⟨_, same ▸ marked, rfl⟩
  atom? {text text'} same _ _ := by
    subst same
    unfold atom?
    split
    · unfold literal
      cases literalFrom [] text.tail with
      | error fault rest => exact .error rfl
      | ok content rest =>
        exact .ok (.some (fillEmpty_literalText placeholder maxDepth content)) rfl
    · by_cases empty : (bareFrom [] text).1 = []
      · rw [bare?_of_nil (Prod.ext empty rfl)]
        exact .ok .none rfl
      · rw [bare?_of_ne_nil empty]
        exact .ok (.some (fillEmpty_ofList empty)) rfl

private theorem exprAt_fillEmpty (placeholder : String) (maxDepth depth : Nat)
    (text : List TextUnit) :
    exprAt ⟨placeholder, maxDepth⟩ depth text =
      (exprAt ⟨"", maxDepth⟩ depth text).map (Option.map (.mapText (fillEmpty placeholder))) := by
  have agree := (fillEmpty_corresponds placeholder maxDepth).exprAt_agree depth text text rfl
  generalize exprAt ⟨"", maxDepth⟩ depth text = o at agree
  generalize exprAt ⟨placeholder, maxDepth⟩ depth text = o' at agree
  cases agree with
  | error left => rw [left, Outcome.map_error]
  | ok value left =>
    rw [left, Outcome.map_ok]
    cases value with
    | none => rfl
    | some alike =>
      have same := alike.mapText_eq (f := fillEmpty placeholder) (g := id) fun _ _ _ same => same
      rw [Option.map_some, same, Datum.mapText_id]

section EmptyLiterals

variable {options : ReadOptions} {text rest : List TextUnit}

private theorem exprWith_emptyLiteral {inner : Option (Production (Option Datum))}
    (reads : ∀ production ∈ inner, ReadsExpressions production)
    (front : skipBlanks text = .char '"' :: .char '"' :: rest) :
    exprWith options inner text = .ok (some (.atom options.emptyLiteral)) (skipBlanks rest) := by
  have unmarked : mark? (skipBlanks text) = none := by
    rw [front]
    rfl
  have notOpening : peek? (skipBlanks text) ≠ some '(' := by
    rw [front]
    simp [peek?]
  rw [(ExprStep.atom unmarked notOpening).exprWith_eq reads, front]
  simp [atom?, literal, peek?, ReadOptions.literalText]

/-- Wherever an expression may stand, an empty literal is one. -/
theorem exprAt_emptyLiteral (depth : Nat)
    (front : skipBlanks text = .char '"' :: .char '"' :: rest) :
    exprAt options depth text = .ok (some (.atom options.emptyLiteral)) (skipBlanks rest) := by
  cases depth with
  | zero => exact exprWith_emptyLiteral (by simp) front
  | succ depth =>
    exact exprWith_emptyLiteral (by simpa using exprAt_readsExpressions options depth) front

end EmptyLiterals

section Read

variable (placeholder : String) (maxDepth : Nat)

private theorem document_error_iff {text rest : List TextUnit} {fault : Fault} :
    document ⟨placeholder, maxDepth⟩ text = .error fault rest ↔
      document ⟨"", maxDepth⟩ text = .error fault rest := by
  simp only [document, exprAt_fillEmpty placeholder]
  cases exprAt ⟨"", maxDepth⟩ maxDepth text with
  | error fault' rest' => rfl
  | ok d? rest' => cases rest' <;> simp [textEnd]

private theorem read_error_iff {text : String} {e : ReadError} :
    read ⟨placeholder, maxDepth⟩ text = .error e ↔ read ⟨"", maxDepth⟩ text = .error e := by
  simp only [read_eq_error_iff, document_error_iff placeholder]

private theorem read_of_isVacant {text : String} (vacant : IsVacant text) :
    read ⟨placeholder, maxDepth⟩ text = .ok (.atom "") := by
  have absent := isVacant_iff.1 vacant
  exact read_eq_ok_iff_exprAt.2 (.inl ⟨((exprAt_readsExpressions _ _).absent _ _).2 absent, rfl⟩)

private theorem read_eq_ok_iff_of_not_isVacant {text : String} (notVacant : ¬IsVacant text)
    {d : Datum} :
    read ⟨placeholder, maxDepth⟩ text = .ok d ↔
      exprAt ⟨placeholder, maxDepth⟩ maxDepth (split text.toList) = .ok (some d) [] := by
  rw [read_eq_ok_iff_exprAt]
  constructor
  · rintro (⟨none_eq, -⟩ | some_eq)
    · have absent := ((exprAt_readsExpressions _ _).absent _ _).1 none_eq
      exact absurd (isVacant_iff.2 absent) notVacant
    · exact some_eq
  · exact .inr

private theorem read_fillEmpty {text : String} (notVacant : ¬IsVacant text) {d : Datum}
    (h : read ⟨"", maxDepth⟩ text = .ok d) :
    read ⟨placeholder, maxDepth⟩ text = .ok (d.mapText (fillEmpty placeholder)) := by
  rw [read_eq_ok_iff_of_not_isVacant _ _ notVacant] at h ⊢
  rw [exprAt_fillEmpty, h]
  rfl

private theorem exists_read_plain {text : String} {d : Datum}
    (h : read ⟨placeholder, maxDepth⟩ text = .ok d) : ∃ d, read ⟨"", maxDepth⟩ text = .ok d := by
  cases plain : read ⟨"", maxDepth⟩ text with
  | ok d => exact ⟨d, rfl⟩
  | error e =>
    rw [(read_error_iff placeholder maxDepth).2 plain] at h
    cases h

private theorem texts_ne_empty {text : String} (notVacant : ¬IsVacant text) {d : Datum}
    (h : read ⟨placeholder, maxDepth⟩ text = .ok d) (nonempty : placeholder ≠ "") :
    "" ∉ d.texts := by
  obtain ⟨plain, plain_eq⟩ := exists_read_plain placeholder maxDepth h
  rw [read_fillEmpty placeholder maxDepth notVacant plain_eq] at h
  cases h
  rw [Datum.texts_mapText]
  intro inside
  obtain ⟨atom, -, empty⟩ := List.mem_map.1 inside
  exact fillEmpty_ne_empty nonempty empty

/-- Every lexeme that stands for an atom is a leaf of what is read, the empty literals among them,
and there are no other leaves. -/
theorem exists_texts_eq {text : String} (notVacant : ¬IsVacant text) {d : Datum}
    (h : read ⟨placeholder, maxDepth⟩ text = .ok d) :
    ∃ lexemes, Spells lexemes text.toList ∧
      d.texts = lexemes.filterMap (Lexeme.leaf? ⟨placeholder, maxDepth⟩) := by
  rw [read_eq_ok_iff_of_not_isVacant _ _ notVacant] at h
  obtain ⟨lexemes, scans, derives, -⟩ := exprAt_eq_ok_some_iff.1 h
  exact ⟨lexemes, (spells_iff_scans derives.ne_nil).2 scans, derives.texts_eq⟩

/-- With a placeholder for empty literals, a text fails to be read as it does without one. A text
without expressions is the empty atom all the same, and any other text is read as the datum that it
is without the placeholder, with that put into its empty atoms. -/
theorem read_emptyLiteral (placeholder : String) (maxDepth : Nat) (text : String) :
    (∀ e, read ⟨placeholder, maxDepth⟩ text = .error e ↔ read ⟨"", maxDepth⟩ text = .error e) ∧
      (IsVacant text → read ⟨placeholder, maxDepth⟩ text = .ok (.atom "") ∧
        read ⟨"", maxDepth⟩ text = .ok (.atom "")) ∧
      (¬IsVacant text →
        (∀ d, read ⟨"", maxDepth⟩ text = .ok d →
          read ⟨placeholder, maxDepth⟩ text = .ok (d.mapText (fillEmpty placeholder))) ∧
        ∀ d, read ⟨placeholder, maxDepth⟩ text = .ok d →
          (placeholder ≠ "" → "" ∉ d.texts) ∧
            ∃ lexemes, Spells lexemes text.toList ∧
              d.texts = lexemes.filterMap (Lexeme.leaf? ⟨placeholder, maxDepth⟩)) ∧
      ∀ (depth : Nat) (units rest : List TextUnit),
        skipBlanks units = .char '"' :: .char '"' :: rest →
          let inner := exprAt ⟨placeholder, maxDepth⟩ depth
          inner units = .ok (some (.atom placeholder)) (skipBlanks rest) ∧
            (∀ items u fuel, itemsWith inner items (u :: fuel) units =
              itemsWith inner (.atom placeholder :: items) fuel (skipBlanks rest)) ∧
            ∀ mark, markedWith inner mark units =
              .ok (.marked mark (.atom placeholder)) (skipBlanks rest) := by
  refine ⟨fun e => read_error_iff placeholder maxDepth, fun vacant => ?_, fun notVacant => ?_, ?_⟩
  · exact ⟨read_of_isVacant _ _ vacant, read_of_isVacant _ _ vacant⟩
  · refine ⟨fun d plain => read_fillEmpty _ _ notVacant plain, fun d h => ?_⟩
    exact ⟨texts_ne_empty _ _ notVacant h, exists_texts_eq _ _ notVacant h⟩
  · intro depth units rest front
    have here : exprAt ⟨placeholder, maxDepth⟩ depth units =
        .ok (some (.atom placeholder)) (skipBlanks rest) := exprAt_emptyLiteral depth front
    refine ⟨here, fun items u fuel => ?_, fun mark => ?_⟩
    · simp only [itemsWith, here]
    · simp only [markedWith, here]

theorem read_emptyLiteral_marked :
    ¬IsVacant "('\"\" a \"\")" ∧
      read ⟨"", 2⟩ "('\"\" a \"\")" =
        .ok (.list [.marked .quote (.atom ""), .atom "a", .atom ""]) ∧
      read ⟨"-", 2⟩ "('\"\" a \"\")" =
        .ok (.list [.marked .quote (.atom "-"), .atom "a", .atom "-"]) := by
  have notVacant : ¬IsVacant "('\"\" a \"\")" :=
    not_isVacant_of_mem (by decide : '(' ∈ "('\"\" a \"\")".toList) (by decide) (by decide)
  have plain : read ⟨"", 2⟩ "('\"\" a \"\")" =
      .ok (.list [.marked .quote (.atom ""), .atom "a", .atom ""]) := by decide +kernel
  exact ⟨notVacant, plain, ((read_emptyLiteral "-" 2 _).2.2.1 notVacant).1 _ plain⟩

end Read

end SExpr

import SExpr.Datum.Walk
import SExpr.Proofs.Grammar.Acceptance

namespace SExpr

def escape (special : Char → Bool) (text : List Char) : List Char :=
  text.flatMap fun c => if special c then ['\\', c] else [c]

/-- The texts of a datum. -/
inductive Written : Datum → List Char → Prop where
  | literal (text : String) :
      Written (.atom text) ('"' :: escape (fun c => c == '"' || c == '\\') text.toList ++ ['"'])
  | bare (text : String) (nonempty : text ≠ "") :
      Written (.atom text) (escape stopsAtom text.toList)
  | marked (mark : QuoteMark) {d : Datum} {text : List Char} (inner : Written d text) :
      Written (.list [.atom mark.name, d]) (mark.sign.toList ++ ' ' :: text)
  | list (parts : List (Datum × List Char)) (items : ∀ part ∈ parts, Written part.1 part.2) :
      Written (.list (parts.map Prod.fst))
        ('(' :: [' '].intercalate (parts.map Prod.snd) ++ [')'])

section Existence

mutual

private theorem exists_written : (d : Datum) → ∃ text, Written d text
  | .atom text => ⟨_, .literal text⟩
  | .list items => by
    obtain ⟨parts, written, rfl⟩ := exists_written_items items
    exact ⟨_, .list parts written⟩

private theorem exists_written_items : (items : List Datum) →
    ∃ parts : List (Datum × List Char), (∀ part ∈ parts, Written part.1 part.2) ∧
      parts.map Prod.fst = items
  | [] => ⟨[], by simp, rfl⟩
  | d :: items => by
    obtain ⟨text, written⟩ := exists_written d
    obtain ⟨parts, others, rfl⟩ := exists_written_items items
    exact ⟨(d, text) :: parts, List.forall_mem_cons.2 ⟨written, others⟩, rfl⟩

end

end Existence

section Atoms

def LiteralItem.ofChar (c : Char) : LiteralItem :=
  if h : c ≠ '"' ∧ c ≠ '\\' then .plain c h else .escaped c

def BareItem.ofChar (c : Char) : BareItem :=
  if h : stopsAtom c = false then .plain c h else .escaped (.char c)

private theorem LiteralItem.chars_ofChar (c : Char) :
    (ofChar c).chars = if c == '"' || c == '\\' then ['\\', c] else [c] := by
  unfold ofChar
  split
  · rename_i plain
    simp [chars, plain]
  · rename_i special
    have special : (c == '"' || c == '\\') = true := by
      simpa [imp_iff_not_or] using special
    rw [if_pos special, chars]

private theorem LiteralItem.meaning_ofChar (c : Char) : (ofChar c).meaning = c := by
  unfold ofChar
  split
  · rfl
  · rename_i special
    have special : c = '"' ∨ c = '\\' := by simpa [imp_iff_not_or] using special
    rcases special with rfl | rfl <;> rfl

private theorem BareItem.chars_ofChar (c : Char) :
    (ofChar c).chars = if stopsAtom c then ['\\', c] else [c] := by
  unfold ofChar
  split
  · rename_i plain
    rw [plain]
    rfl
  · rename_i stops
    rw [if_pos (by simpa using stops)]
    rfl

private theorem BareItem.meaning_ofChar (c : Char) : (ofChar c).meaning = [c] := by
  unfold ofChar
  split <;> rfl

variable (text : List Char)

private theorem flatMap_chars_literalItems :
    (text.map LiteralItem.ofChar).flatMap LiteralItem.chars =
      escape (fun c => c == '"' || c == '\\') text := by
  rw [List.flatMap_map]
  exact congrArg text.flatMap (funext LiteralItem.chars_ofChar)

private theorem map_meaning_literalItems :
    (text.map LiteralItem.ofChar).map LiteralItem.meaning = text := by
  rw [List.map_map]
  exact List.map_id'' LiteralItem.meaning_ofChar text

private theorem flatMap_chars_bareItems :
    (text.map BareItem.ofChar).flatMap BareItem.chars = escape stopsAtom text := by
  rw [List.flatMap_map]
  exact congrArg text.flatMap (funext BareItem.chars_ofChar)

private theorem flatMap_meaning_bareItems :
    (text.map BareItem.ofChar).flatMap BareItem.meaning = text := by
  rw [List.flatMap_map]
  have meaning_eq := congrArg text.flatMap (funext BareItem.meaning_ofChar)
  exact meaning_eq.trans (List.flatMap_singleton' text)

end Atoms

section Reading

variable {options : ReadOptions}

/-- Whether the text is the whole of an expression `d` in front of a space, of a closing parenthesis
and of the end. -/
def Spelled (options : ReadOptions) (d : Datum) (text : List Char) : Prop :=
  ∃ lexemes, Derives options lexemes d ∧
    ∀ behind, (∀ c ∈ behind.head?, c = ' ' ∨ c = ')') → Scans lexemes (text ++ behind) behind

private theorem spelled_literal {text : String} (faithful : options.emptyLiteral = "" ∨ text ≠ "") :
    Spelled options (.atom text)
      ('"' :: escape (fun c => c == '"' || c == '\\') text.toList ++ ['"']) := by
  let items := text.toList.map LiteralItem.ofChar
  have meaning : (if items = [] then options.emptyLiteral
      else String.ofList (items.map LiteralItem.meaning)) = text := by
    rw [map_meaning_literalItems, String.ofList_toList]
    split
    · rename_i empty
      obtain rfl : text = "" := by simpa [items] using empty
      exact faithful.resolve_right fun nonempty => nonempty rfl
    · rfl
  have derives : Derives options [.literal items] (.atom text) := meaning ▸ .literal items
  refine ⟨_, derives, fun behind _ => ?_⟩
  have scans := Scans.here (l := .literal items) trivial (.refl behind)
  rwa [Lexeme.spelling, flatMap_chars_literalItems] at scans

theorem spelled_bare {text : String} (nonempty : text ≠ "") :
    Spelled options (.atom text) (escape stopsAtom text.toList) := by
  let items := text.toList.map BareItem.ofChar
  have items_ne_nil : items ≠ [] := by simpa [items] using nonempty
  have derives : Derives options [.bare items items_ne_nil] (.atom text) := by
    have derives : Derives options [.bare items items_ne_nil] _ := .bare items items_ne_nil
    rwa [flatMap_meaning_bareItems, String.ofList_toList] at derives
  refine ⟨_, derives, fun behind separates => ?_⟩
  have ends : BareEnd items behind := by
    constructor
    · intro c head
      rcases separates c head with rfl | rfl <;> decide
    · intro _ feed
      exact absurd (separates '\n' feed) (by decide)
  have scans := Scans.here (l := .bare items items_ne_nil) ends (.refl behind)
  rwa [Lexeme.spelling, flatMap_chars_bareItems] at scans

theorem blank_space : ∀ c ∈ [' '], isBlank c :=
  List.forall_mem_singleton.2 (by decide)

private theorem spelled_marked (mark : QuoteMark) {d : Datum} {text : List Char}
    (inner : Spelled options d text) :
    Spelled options (.list [.atom mark.name, d]) (mark.sign.toList ++ ' ' :: text) := by
  obtain ⟨lexemes, derives, scans⟩ := inner
  refine ⟨_, .marked mark derives, fun behind separates => ?_⟩
  have ends : (Lexeme.mark mark).EndsBefore ([' '] ++ (text ++ behind)) :=
    Lexeme.endsBefore_of_gap _ (by simp) blank_space (by simp) _
  have scans := Scans.here ends ((scans behind separates).blanks blank_space)
  simpa [Lexeme.spelling] using scans

private theorem spelled_items {parts : List (Datum × List Char)}
    (items : ∀ part ∈ parts, Spelled options part.1 part.2) :
    ∃ derived : List (List Lexeme × Datum),
      (∀ part ∈ derived, Derives options part.1 part.2) ∧
        derived.map Prod.snd = parts.map Prod.fst ∧
          ∀ behind, Scans (derived.flatMap Prod.fst)
            ([' '].intercalate (parts.map Prod.snd) ++ ')' :: behind) (')' :: behind) := by
  induction parts with
  | nil => exact ⟨[], by simp, rfl, fun behind => .refl _⟩
  | cons part parts ih =>
    obtain ⟨⟨lexemes, derives, scans⟩, others⟩ := List.forall_mem_cons.1 items
    obtain ⟨derived, derives', datum_eq, scans'⟩ := ih others
    refine ⟨(lexemes, part.1) :: derived, List.forall_mem_cons.2 ⟨derives, derives'⟩, ?_, ?_⟩
    · rw [List.map_cons, datum_eq, List.map_cons]
    intro behind
    have goesOn := scans' behind
    cases parts with
    | nil =>
      have first := scans (')' :: behind) (by simp)
      simpa using first.append goesOn
    | cons next parts =>
      have first := scans (' ' :: ([' '].intercalate ((next :: parts).map Prod.snd) ++
        ')' :: behind)) (by simp)
      simpa [List.intercalate_cons_cons] using first.append (goesOn.blanks blank_space)

private theorem spelled_list {parts : List (Datum × List Char)}
    (items : ∀ part ∈ parts, Spelled options part.1 part.2) :
    Spelled options (.list (parts.map Prod.fst))
      ('(' :: [' '].intercalate (parts.map Prod.snd) ++ [')']) := by
  obtain ⟨derived, derives, datum_eq, scans⟩ := spelled_items items
  rw [← datum_eq]
  refine ⟨_, .list derived derives, fun behind _ => ?_⟩
  have closing := Scans.here (l := .closing) trivial (.refl behind)
  have scans := Scans.here (l := .opening) trivial ((scans behind).append closing)
  simpa [Lexeme.spelling] using scans

private theorem Written.spelled {d : Datum} {text : List Char} (written : Written d text)
    (faithful : options.emptyLiteral = "" ∨ .atom "" ∉ d.nodes) : Spelled options d text := by
  induction written with
  | literal text => exact spelled_literal (faithful.imp_right fun full => by simpa using full)
  | bare text nonempty => exact spelled_bare nonempty
  | marked mark inner ih =>
    refine spelled_marked mark (ih (faithful.imp_right fun full empty => full ?_))
    exact Datum.atom_mem_nodes_list.2 ⟨_, by simp, empty⟩
  | list parts items ih =>
    refine spelled_list fun part member => ih part member ?_
    refine faithful.imp_right fun full empty => full ?_
    exact Datum.atom_mem_nodes_list.2 ⟨part.1, List.mem_map_of_mem member, empty⟩

end Reading

/-- Every datum within the limit can be written, and however it is written, it is read back. An
empty atom can only be kept if an empty literal is read as the empty text. -/
theorem read_of_written (options : ReadOptions) (d : Datum) (shallow : d.depth ≤ options.maxDepth)
    (faithful : options.emptyLiteral = "" ∨ .atom "" ∉ d.nodes) :
    (∃ text, Written d text) ∧
      ∀ text, Written d text → read options (String.ofList text) = .ok d := by
  refine ⟨exists_written d, fun text written => ?_⟩
  obtain ⟨lexemes, derives, scans⟩ := written.spelled faithful
  rw [read_eq_ok_iff_exprAt, String.toList_ofList]
  refine .inr (exprAt_eq_ok_some_iff.2 ⟨lexemes, ?_, derives, shallow⟩)
  have atEnd := scans [] (by simp)
  rwa [List.append_nil] at atEnd

theorem read_of_written_quoted :
    let d := Datum.list [.atom "quote", .list [.atom "a b", .atom "\"\r\n"]]
    d.depth ≤ 2 ∧ .atom "" ∉ d.nodes ∧
      Written d "' (a\\ b \"\\\"\r\n\")".toList ∧
        read ⟨" ", 2⟩ (String.ofList "' (a\\ b \"\\\"\r\n\")".toList) = .ok d := by
  intro d
  have shallow : d.depth ≤ 2 := by decide
  have full : .atom "" ∉ d.nodes := by decide
  have items : ∀ part ∈ [(Datum.atom "a b", "a\\ b".toList),
      (.atom "\"\r\n", "\"\\\"\r\n\"".toList)], Written part.1 part.2 := by
    intro part member
    rcases List.mem_pair.1 member with rfl | rfl
    · exact .bare "a b" (by decide)
    · exact .literal "\"\r\n"
  have written : Written d "' (a\\ b \"\\\"\r\n\")".toList := .marked .quote (.list _ items)
  exact ⟨shallow, full, written, (read_of_written ⟨" ", 2⟩ d shallow (.inr full)).2 _ written⟩

end SExpr

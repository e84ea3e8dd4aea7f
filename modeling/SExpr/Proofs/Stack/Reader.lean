import SExpr.Proofs.Grammar.Lexeme
import SExpr.Proofs.Place

/-!
# Reading with a stack

A reader that keeps the levels it is in on a stack of its own, takes a token at each turn, and has
no part of the productions of the grammar in it.
-/

namespace SExpr

private theorem Cursor.length_rest_of_next? {c next : Cursor} {u : TextUnit}
    (h : c.next? = some (u, next)) : next.rest.length < c.rest.length := by
  rw [rest_eq_of_next? h, List.length_cons]
  exact Nat.lt_succ_self _

/-- A level that has begun and not come to its end. -/
inductive Frame where
  /-- A list with its items so far, the last one first. -/
  | list (items : List Datum)
  | mark (mark : QuoteMark)

inductive Progress where
  | within (stack : List Frame)
  | whole (d : Datum)

inductive Turn where
  | result (result : Except ReadError Datum)
  | goOn (progress : Progress) (cursor : Cursor)

namespace StackReader

/-- Hands a datum to the innermost level. It completes the marks in front of it. -/
def deliver (d : Datum) : List Frame → Progress
  | [] => .whole d
  | .mark mark :: stack => deliver (.list [.atom mark.name, d]) stack
  | .list items :: stack => .within (.list (d :: items) :: stack)

def endOfText (progress : Progress) (position : Position) : Except ReadError Datum :=
  match progress with
  | .whole d => .ok d
  | .within [] => .ok (.atom "")
  | .within (.mark mark :: _) => .error ⟨.nothingMarked mark none, position⟩
  | .within (.list _ :: _) => .error ⟨.missingClosing none, position⟩

def openLevel (options : ReadOptions) (stack : List Frame) (cursor : Cursor) (frame : Frame)
    (behind : Cursor) : Turn :=
  if stack.length = options.maxDepth then .result (.error ⟨.tooDeep, cursor.position⟩)
  else .goOn (.within (frame :: stack)) behind

def closeLevel (stack : List Frame) (cursor behind : Cursor) : Turn :=
  match stack with
  | [] => .result (.error ⟨.superfluous ')', cursor.position⟩)
  | .mark mark :: _ => .result (.error ⟨.nothingMarked mark (some ')'), cursor.position⟩)
  | .list items :: stack => .goOn (deliver (.list items.reverse) stack) behind

/-- A comma is a mark alone, and another one with an at sign right behind it. -/
def takeComma (options : ReadOptions) (stack : List Frame) (cursor behind : Cursor) : Turn :=
  match behind.next? with
  | some (.char '@', further) => openLevel options stack cursor (.mark .unquoteSplicing) further
  | _ => openLevel options stack cursor (.mark .unquote) behind

def decoded : TextUnit → List Char
  | .char c => [controlOf c]
  | .crlf => ['\r', '\n']

/-- Takes a string literal to its closing quote. `escaped` tells of a backslash in front. -/
def scanLiteral (escaped : Bool) (taken : List Char) (cursor : Cursor) :
    Except ReadError (List Char × Cursor) :=
  match h : cursor.next? with
  | none => .error ⟨.unterminatedLiteral, cursor.position⟩
  | some (u, behind) =>
    have : behind.rest.length < cursor.rest.length := Cursor.length_rest_of_next? h
    if escaped then scanLiteral false (taken ++ decoded u) behind
    else if u = .char '"' then .ok (taken, behind)
    else if u = .char '\\' then scanLiteral true taken behind
    else scanLiteral false (taken ++ u.chars) behind
termination_by cursor.rest.length

def takeLiteral (options : ReadOptions) (stack : List Frame) (behind : Cursor) : Turn :=
  match scanLiteral false [] behind with
  | .ok (chars, after) =>
    let text := if chars = [] then options.emptyLiteral else String.ofList chars
    .goOn (deliver (.atom text) stack) after
  | .error e => .result (.error e)

def endsBare (c : Char) : Bool :=
  isBlank c || ['"', '(', ')', '\x27', '\x60', ','].contains c

/-- Takes a bare atom to its end. A backslash at the end of the text is dropped. -/
def scanBare (escaped : Bool) (taken : List Char) (cursor : Cursor) : List Char × Cursor :=
  match h : cursor.next? with
  | none => (taken, cursor)
  | some (u, behind) =>
    have : behind.rest.length < cursor.rest.length := Cursor.length_rest_of_next? h
    if escaped then scanBare false (taken ++ u.chars) behind
    else if u = .char '\\' then scanBare true taken behind
    else if endsBare u.first then (taken, cursor)
    else scanBare false (taken ++ u.chars) behind
termination_by cursor.rest.length

def takeBare (stack : List Frame) (cursor : Cursor) : Turn :=
  let (chars, after) := scanBare false [] cursor
  .goOn (deliver (.atom (String.ofList chars)) stack) after

/-- The token that begins with `u` at `cursor`. A lone backslash at the end of the text is none. -/
def takeToken (options : ReadOptions) (stack : List Frame) (cursor : Cursor) (u : TextUnit)
    (behind : Cursor) : Turn :=
  match u with
  | .char '(' => openLevel options stack cursor (.list []) behind
  | .char ')' => closeLevel stack cursor behind
  | .char '"' => takeLiteral options stack behind
  | .char '\x27' => openLevel options stack cursor (.mark .quote) behind
  | .char '\x60' => openLevel options stack cursor (.mark .quasiquote) behind
  | .char ',' => takeComma options stack cursor behind
  | u =>
    if u = .char '\\' ∧ behind.atEnd then .result (endOfText (.within stack) behind.position)
    else takeBare stack cursor

def turn (options : ReadOptions) (progress : Progress) (cursor : Cursor) : Turn :=
  let cursor := cursor.skipBlanks
  match cursor.next?, progress with
  | none, progress => .result (endOfText progress cursor.position)
  | some (u, _), .whole _ => .result (.error ⟨.superfluous u.first, cursor.position⟩)
  | some (u, behind), .within stack => takeToken options stack cursor u behind

section Scans

variable {cursor : Cursor} {u : TextUnit} {rest : List TextUnit} (escaped : Bool)
  (taken : List Char)

theorem scanLiteral_of_nil (h : cursor.rest = []) :
    scanLiteral escaped taken cursor = .error ⟨.unterminatedLiteral, cursor.position⟩ := by
  have next_eq : cursor.next? = none := by rw [Cursor.next?, h]
  rw [scanLiteral]
  split
  · rfl
  · simp_all

theorem scanLiteral_of_cons (h : cursor.rest = u :: rest) :
    scanLiteral escaped taken cursor =
      if escaped then scanLiteral false (taken ++ decoded u) (cursor.advanceTo rest)
      else if u = .char '"' then .ok (taken, cursor.advanceTo rest)
      else if u = .char '\\' then scanLiteral true taken (cursor.advanceTo rest)
      else scanLiteral false (taken ++ u.chars) (cursor.advanceTo rest) := by
  have next_eq := Cursor.next?_eq h
  rw [scanLiteral]
  split
  · simp_all
  · rename_i next_eq'
    cases next_eq.symm.trans next_eq'
    rfl

theorem scanBare_of_nil (h : cursor.rest = []) :
    scanBare escaped taken cursor = (taken, cursor) := by
  have next_eq : cursor.next? = none := by rw [Cursor.next?, h]
  rw [scanBare]
  split
  · rfl
  · simp_all

theorem scanBare_of_cons (h : cursor.rest = u :: rest) :
    scanBare escaped taken cursor =
      if escaped then scanBare false (taken ++ u.chars) (cursor.advanceTo rest)
      else if u = .char '\\' then scanBare true taken (cursor.advanceTo rest)
      else if endsBare u.first then (taken, cursor)
      else scanBare false (taken ++ u.chars) (cursor.advanceTo rest) := by
  have next_eq := Cursor.next?_eq h
  rw [scanBare]
  split
  · simp_all
  · rename_i next_eq'
    cases next_eq.symm.trans next_eq'
    rfl

private theorem scanLiteral_length {escaped : Bool} {taken chars : List Char} {after : Cursor}
    (h : scanLiteral escaped taken cursor = .ok (chars, after)) :
    after.rest.length < cursor.rest.length := by
  fun_induction scanLiteral escaped taken cursor with
  | case1 => cases h
  | case2 taken cursor u behind next_eq shorter ih => exact (ih h).trans shorter
  | case3 escaped taken cursor behind _ next_eq shorter =>
    cases h
    exact shorter
  | case4 escaped taken cursor behind _ next_eq shorter _ ih => exact (ih h).trans shorter
  | case5 escaped taken cursor u behind next_eq shorter _ _ _ ih => exact (ih h).trans shorter

private theorem scanBare_length :
    (scanBare escaped taken cursor).2.rest.length ≤ cursor.rest.length := by
  fun_induction scanBare escaped taken cursor with
  | case1 => exact Nat.le_refl _
  | case2 taken cursor u behind next_eq shorter ih => exact ih.trans shorter.le
  | case3 escaped taken cursor behind _ next_eq shorter ih => exact ih.trans shorter.le
  | case4 => exact Nat.le_refl _
  | case5 escaped taken cursor u behind next_eq shorter _ _ _ ih => exact ih.trans shorter.le

end Scans

section Progress

variable {options : ReadOptions} {stack : List Frame} {cursor behind cursor' : Cursor}
  {progress progress' : Progress}

private theorem openLevel_goOn {frame : Frame}
    (h : openLevel options stack cursor frame behind = .goOn progress cursor') :
    cursor' = behind := by
  unfold openLevel at h
  split at h
  · cases h
  · cases h
    rfl

private theorem closeLevel_goOn (h : closeLevel stack cursor behind = .goOn progress cursor') :
    cursor' = behind := by
  unfold closeLevel at h
  split at h <;> cases h
  rfl

private theorem takeComma_goOn
    (h : takeComma options stack cursor behind = .goOn progress cursor') :
    cursor'.rest.length ≤ behind.rest.length := by
  unfold takeComma at h
  split at h
  · rename_i next_eq
    rw [openLevel_goOn h]
    exact (Cursor.length_rest_of_next? next_eq).le
  · rw [openLevel_goOn h]

private theorem takeLiteral_goOn (h : takeLiteral options stack behind = .goOn progress cursor') :
    cursor'.rest.length ≤ behind.rest.length := by
  unfold takeLiteral at h
  split at h
  · rename_i scan
    cases h
    exact (scanLiteral_length scan).le
  · cases h

private theorem takeBare_goOn {u : TextUnit} {after : List TextUnit}
    (rest_eq : cursor.rest = u :: after) (goesOn : endsBare u.first = false)
    (h : takeBare stack cursor = .goOn progress cursor') :
    cursor'.rest.length < cursor.rest.length := by
  have shorter : (cursor.advanceTo after).rest.length < cursor.rest.length := by
    rw [Cursor.rest_advanceTo (rest_eq ▸ List.suffix_cons u after), rest_eq]
    exact Nat.lt_succ_self _
  cases h
  refine Nat.lt_of_le_of_lt ?_ shorter
  rw [scanBare_of_cons false [] rest_eq]
  by_cases backslash : u = .char '\\'
  · simpa [backslash] using scanBare_length true []
  · simpa [backslash, goesOn] using scanBare_length false u.chars

private theorem takeToken_goOn {u : TextUnit} {after : List TextUnit}
    (rest_eq : cursor.rest = u :: after) (notBlank : isBlank u.first = false)
    (h : takeToken options stack cursor u (cursor.advanceTo after) = .goOn progress cursor') :
    cursor'.rest.length < cursor.rest.length := by
  have of_le : cursor'.rest.length ≤ (cursor.advanceTo after).rest.length →
      cursor'.rest.length < cursor.rest.length := by
    rw [Cursor.rest_advanceTo (rest_eq ▸ List.suffix_cons u after), rest_eq]
    exact Nat.lt_succ_of_le
  unfold takeToken at h
  split at h
  · exact of_le (by rw [openLevel_goOn h])
  · exact of_le (by rw [closeLevel_goOn h])
  · exact of_le (takeLiteral_goOn h)
  · exact of_le (by rw [openLevel_goOn h])
  · exact of_le (by rw [openLevel_goOn h])
  · exact of_le (takeComma_goOn h)
  · rename_i notOpening notClosing notQuote notApostrophe notGrave notComma
    split at h
    · cases h
    · refine takeBare_goOn rest_eq ?_ h
      have other : ∀ c, c ≠ '\r' → (u = .char c → False) → u.first ≠ c :=
        fun c hc ne first => ne (TextUnit.eq_char_of_first first hc)
      simp [endsBare, notBlank, other _ (by decide) notOpening, other _ (by decide) notClosing,
        other _ (by decide) notQuote, other _ (by decide) notApostrophe,
        other _ (by decide) notGrave, other _ (by decide) notComma]

end Progress

section Turns

variable (options : ReadOptions) (stack : List Frame) {cursor : Cursor}

theorem turn_of_nil (progress : Progress) (front : skipBlanks cursor.rest = []) :
    turn options progress cursor =
      .result (endOfText progress (cursor.advanceTo []).position) := by
  have next_eq : cursor.skipBlanks.next? = none := by
    rw [Cursor.skipBlanks_eq, Cursor.next?, Cursor.rest_advanceTo (skipBlanks_suffix _), front]
  simp only [turn, next_eq]
  rw [Cursor.skipBlanks_eq, front]

private theorem next?_skipBlanks {u : TextUnit} {after : List TextUnit}
    (front : skipBlanks cursor.rest = u :: after) :
    cursor.skipBlanks.next? = some (u, cursor.advanceTo after) := by
  have suffix := front ▸ skipBlanks_suffix cursor.rest
  rw [Cursor.skipBlanks_eq, front, Cursor.next?_eq (Cursor.rest_advanceTo suffix),
    Cursor.advanceTo_advanceTo suffix (List.suffix_cons u after)]

theorem turn_whole (d : Datum) {u : TextUnit} {after : List TextUnit}
    (front : skipBlanks cursor.rest = u :: after) :
    turn options (.whole d) cursor =
      .result (.error ⟨.superfluous u.first, (cursor.advanceTo (u :: after)).position⟩) := by
  simp only [turn, next?_skipBlanks front]
  rw [Cursor.skipBlanks_eq, front]

theorem turn_within {u : TextUnit} {after : List TextUnit}
    (front : skipBlanks cursor.rest = u :: after) :
    turn options (.within stack) cursor =
      takeToken options stack (cursor.advanceTo (u :: after)) u (cursor.advanceTo after) := by
  simp only [turn, next?_skipBlanks front]
  rw [Cursor.skipBlanks_eq, front]

end Turns

/-- Every turn that is not the last one takes up a unit at least. -/
theorem turn_goOn {options : ReadOptions} {progress progress' : Progress} {cursor cursor' : Cursor}
    (h : turn options progress cursor = .goOn progress' cursor') :
    cursor'.rest.length < cursor.rest.length := by
  cases front : skipBlanks cursor.rest with
  | nil =>
    rw [turn_of_nil options progress front] at h
    cases h
  | cons u after =>
    cases progress with
    | whole d =>
      rw [turn_whole options d front] at h
      cases h
    | within stack =>
      have suffix := front ▸ skipBlanks_suffix cursor.rest
      have behind := List.suffix_cons u after
      rw [turn_within options stack front, ← Cursor.advanceTo_advanceTo suffix behind] at h
      have shorter := takeToken_goOn (Cursor.rest_advanceTo suffix) (isBlank_of_skipBlanks front) h
      rw [Cursor.rest_advanceTo suffix] at shorter
      exact Nat.lt_of_lt_of_le shorter suffix.length_le

def run (options : ReadOptions) (progress : Progress) (cursor : Cursor) : Except ReadError Datum :=
  match h : turn options progress cursor with
  | .result result => result
  | .goOn progress cursor' =>
    have : cursor'.rest.length < cursor.rest.length := turn_goOn h
    run options progress cursor'
termination_by cursor.rest.length

def read (options : ReadOptions) (text : String) : Except ReadError Datum :=
  run options (.within []) (.ofText text)

end StackReader

end SExpr

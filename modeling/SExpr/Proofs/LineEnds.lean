import SExpr.Proofs.Correspondence

namespace SExpr

open TextUnit

def TextUnit.widen (u : TextUnit) : TextUnit :=
  match u with
  | .char '\n' => .crlf
  | u => u

/-- The text with a carriage return in front of every line feed. -/
def withCrlf (text : String) : String :=
  String.ofList (text.toList.flatMap fun c => if c = '\n' then ['\r', '\n'] else [c])

def dropReturns (text : String) : String :=
  String.ofList (text.toList.filter (· ≠ '\r'))

inductive Widens : (text text' : List Char) → Prop where
  | nil : Widens [] []
  | keep (c : Char) {text text' : List Char} (rest : Widens text text') :
      Widens (c :: text) (c :: text')
  | feed {text text' : List Char} (rest : Widens text text') :
      Widens ('\n' :: text) ('\r' :: '\n' :: text')

def TextWidens (text text' : String) : Prop :=
  Widens text.toList text'.toList

/-- The second text is the first with wider line ends, and no blank is in front of them. -/
def Widened (text text' : List TextUnit) : Prop :=
  skipBlanks text = text ∧ text' = text.map widen

namespace Widens

variable {text text' more more' : List Char}

private theorem refl (text : List Char) : Widens text text := by
  induction text with
  | nil => exact .nil
  | cons c text ih => exact .keep c ih

private theorem append (first : Widens text text') (second : Widens more more') :
    Widens (text ++ more) (text' ++ more') := by
  induction first with
  | nil => exact second
  | keep c rest ih => exact .keep c ih
  | feed rest ih => exact .feed ih

private theorem filter_eq (h : Widens text text') :
    text.filter (· ≠ '\r') = text'.filter (· ≠ '\r') := by
  induction h with
  | nil => rfl
  | keep c rest ih => rw [List.filter_cons, List.filter_cons, ih]
  | feed rest ih =>
    rw [List.filter_cons_of_pos (by decide), List.filter_cons_of_neg (by decide),
      List.filter_cons_of_pos (by decide), ih]

private theorem eq_nil_iff (h : Widens text text') : text = [] ↔ text' = [] := by
  cases h <;> simp

private theorem eq_of_not_mem (h : Widens text text') (noFeed : '\n' ∉ text) : text' = text := by
  induction h with
  | nil => rfl
  | keep c rest ih => rw [ih fun inside => noFeed (List.mem_cons_of_mem c inside)]
  | feed rest ih => exact absurd (List.mem_cons_self ..) noFeed

end Widens

section Units

private theorem TextUnit.widen_cases (u : TextUnit) :
    u = .char '\n' ∧ u.widen = .crlf ∨ u ≠ .char '\n' ∧ u.widen = u := by
  by_cases feed : u = .char '\n'
  · subst feed
    exact .inl ⟨rfl, rfl⟩
  · refine .inr ⟨feed, ?_⟩
    unfold widen
    split
    · exact absurd rfl feed
    · rfl

private theorem TextUnit.eq_of_widen {u : TextUnit} {c : Char} (h : u.widen = .char c) :
    u = .char c := by
  rcases u.widen_cases with ⟨-, wide⟩ | ⟨-, same⟩
  · rw [wide] at h
    cases h
  · rwa [same] at h

private theorem TextUnit.first_widen {α : Type} {f : Char → α} (same : f '\r' = f '\n')
    (u : TextUnit) :
    f u.widen.first = f u.first := by
  rcases u.widen_cases with ⟨rfl, -⟩ | ⟨-, same⟩
  · exact same
  · rw [same]

private theorem TextUnit.widens_chars (u : TextUnit) : Widens u.chars u.widen.chars := by
  rcases u.widen_cases with ⟨rfl, -⟩ | ⟨-, same⟩
  · exact .feed .nil
  · rw [same]
    exact .refl _

private theorem widens_unescape (u : TextUnit) : Widens (unescape u) (unescape u.widen) := by
  rcases u.widen_cases with ⟨rfl, -⟩ | ⟨-, same⟩
  · exact .feed .nil
  · rw [same]
    exact .refl _

private theorem Position.after_widen (p : Position) (u : TextUnit) :
    p.after u.widen = p.after u := by
  rcases u.widen_cases with ⟨rfl, -⟩ | ⟨-, same⟩
  · rfl
  · rw [same]

private theorem Position.behind_map_widen (units : List TextUnit) :
    behind (units.map widen) = behind units := by
  simp only [behind, List.foldl_map, after_widen]

private theorem skipBlanks_map_widen (text : List TextUnit) :
    skipBlanks (text.map widen) = (skipBlanks text).map widen := by
  have same : ((isBlank ·.first) ∘ widen) = (isBlank ·.first) :=
    funext fun u => u.first_widen (f := isBlank) (by decide)
  rw [skipBlanks, List.dropWhile_map, same, skipBlanks]

private theorem QuoteMark.map_widen_units (mark : QuoteMark) :
    mark.units.map widen = mark.units := by
  cases mark <;> decide

private theorem split_withCrlf {text : String} (noReturn : '\r' ∉ text.toList) :
    split (withCrlf text).toList = (split text.toList).map widen := by
  rw [withCrlf, String.toList_ofList]
  generalize text.toList = chars at noReturn
  induction chars with
  | nil => rfl
  | cons c chars ih =>
    rw [List.mem_cons, not_or] at noReturn
    rw [List.flatMap_cons, split_cons_of_ne (Ne.symm noReturn.1), List.map_cons, ← ih noReturn.2]
    by_cases feed : c = '\n'
    · subst feed
      rfl
    · rw [if_neg feed, List.singleton_append, split_cons_of_ne (Ne.symm noReturn.1)]
      rcases (char c).widen_cases with ⟨same, -⟩ | ⟨-, same⟩
      · exact absurd (TextUnit.char.inj same) feed
      · rw [same]

end Units

section Atoms

/-- Two scans of a literal go on in step, whatever they have taken so far. -/
theorem literalFrom_widen (text : List TextUnit) (taken taken' : List Char)
    (same : Widens taken.reverse taken'.reverse) :
    Outcome.Agree Widens (fun rest rest' => rest' = rest.map widen) (literalFrom taken text)
      (literalFrom taken' (text.map widen)) := by
  induction taken, text using literalFrom_induction generalizing taken' with
  | nil taken =>
    rw [List.map_nil, literalFrom_nil, literalFrom_nil]
    exact .error rfl
  | plain taken u rest plain ih =>
    have plain' : stopsLiteral u.widen.first = false := by
      rwa [u.first_widen (f := stopsLiteral) (by decide)]
    rw [List.map_cons, literalFrom_plain _ _ plain, literalFrom_plain _ _ plain']
    exact ih _ (by simpa using same.append u.widens_chars)
  | close taken rest =>
    change Outcome.Agree _ _ _ (literalFrom taken' (.char '"' :: rest.map widen))
    rw [literalFrom_close, literalFrom_close]
    exact .ok same rfl
  | backslash taken => exact .error rfl
  | escape taken escaped rest ih =>
    rw [literalFrom_escape]
    exact ih _ (by simpa using same.append (widens_unescape escaped))

private theorem bareFrom_widen (text : List TextUnit) (taken taken' : List Char)
    (same : Widens taken.reverse taken'.reverse) :
    Widens (bareFrom taken text).1 (bareFrom taken' (text.map widen)).1 ∧
      (bareFrom taken' (text.map widen)).2 = (bareFrom taken text).2.map widen := by
  have stops_eq (u : TextUnit) : stopsAtom u.widen.first = stopsAtom u.first :=
    u.first_widen (by decide)
  induction taken, text using bareFrom_induction generalizing taken' with
  | nil taken =>
    rw [List.map_nil, bareFrom_nil, bareFrom_nil]
    exact ⟨same, rfl⟩
  | plain taken u rest plain ih =>
    rw [List.map_cons, bareFrom_plain _ _ plain, bareFrom_plain _ _ ((stops_eq u).trans plain)]
    exact ih _ (by simpa using same.append u.widens_chars)
  | backslash taken =>
    rw [bareFrom_backslash]
    exact ⟨same, rfl⟩
  | escape taken escaped rest ih =>
    rw [bareFrom_escape]
    exact ih _ (by simpa using same.append escaped.widens_chars)
  | stop taken u rest stops notBackslash =>
    have notBackslash' : u.widen.first ≠ '\\' := fun first =>
      notBackslash (by rw [eq_of_widen (eq_char_of_first first (by decide))]; rfl)
    rw [List.map_cons, bareFrom_stop _ _ stops notBackslash,
      bareFrom_stop _ _ ((stops_eq u).trans stops) notBackslash']
    exact ⟨same, rfl⟩

private theorem textWidens_literalText (options : ReadOptions) {text text' : List Char}
    (same : Widens text text') :
    TextWidens (options.literalText text) (options.literalText text') := by
  cases same with
  | nil => exact .refl _
  | keep c rest =>
    simp only [TextWidens, ReadOptions.literalText, String.toList_ofList]
    exact .keep c rest
  | feed rest =>
    simp only [TextWidens, ReadOptions.literalText, String.toList_ofList]
    exact .feed rest

private theorem widened_skipBlanks (text : List TextUnit) :
    Widened (skipBlanks text) (skipBlanks (text.map widen)) :=
  ⟨skipBlanks_skipBlanks text, skipBlanks_map_widen text⟩

private theorem Widened.peek?_eq {text text' : List TextUnit} (widened : Widened text text') :
    peek? text = peek? text' := by
  obtain ⟨settled, rfl⟩ := widened
  cases text with
  | nil => rfl
  | cons u rest =>
    rcases u.widen_cases with ⟨rfl, -⟩ | ⟨-, same⟩
    · exact absurd (isBlank_of_skipBlanks settled) (by decide)
    · rw [List.map_cons, same]
      rfl

private theorem literal_widen (options : ReadOptions) {text text' : List TextUnit}
    (widened : Widened text text') :
    Outcome.Agree TextWidens Widened (literal options text).skipBlanks
      (literal options text').skipBlanks := by
  obtain ⟨-, rfl⟩ := widened
  have agree := literalFrom_widen text.tail [] [] .nil
  rw [List.map_tail] at agree
  unfold literal
  generalize literal_eq : literalFrom [] text.tail = o at agree
  generalize literalFrom [] (text.map widen).tail = o' at agree
  cases agree with
  | @ok content content' rest rest' same left =>
    subst left
    exact .ok (textWidens_literalText options same) (widened_skipBlanks rest)
  | error left =>
    obtain ⟨-, rfl⟩ := literalFrom_error literal_eq
    exact .error ⟨rfl, left⟩

private theorem bare?_widen {text text' : List TextUnit} (widened : Widened text text') :
    Outcome.Agree (Option.Rel TextWidens) Widened (bare? text).skipBlanks
      (bare? text').skipBlanks := by
  obtain ⟨-, rfl⟩ := widened
  obtain ⟨same, left⟩ := bareFrom_widen text [] [] .nil
  by_cases empty : (bareFrom [] text).1 = []
  · have empty' := same.eq_nil_iff.1 empty
    rw [bare?_of_nil (Prod.ext empty rfl), bare?_of_nil (Prod.ext empty' left)]
    exact .ok .none (widened_skipBlanks _)
  · have empty' := mt same.eq_nil_iff.2 empty
    rw [bare?_of_ne_nil empty, bare?_of_ne_nil empty', left]
    refine .ok (.some ?_) (widened_skipBlanks _)
    simpa only [TextWidens, String.toList_ofList] using same

end Atoms

private theorem widened_corresponds (options : ReadOptions) :
    Corresponds options options TextWidens Widened where
  name mark := .refl _
  peek? := Widened.peek?_eq
  bracket {c rest rest'} _ widened := by
    obtain ⟨-, front⟩ := widened
    rw [(List.cons.inj front).2]
    exact widened_skipBlanks rest
  mark? {text text' rest mark} widened marked := by
    obtain ⟨-, rfl⟩ := widened
    obtain ⟨rfl, alone⟩ := mark?_eq_some_iff.1 marked
    refine ⟨rest.map widen, mark?_eq_some_iff.2 ⟨?_, fun comma head => alone comma ?_⟩,
      widened_skipBlanks rest⟩
    · rw [List.map_append, mark.map_widen_units]
    · rw [List.head?_map, Option.map_eq_some_iff] at head
      obtain ⟨u, head, wide⟩ := head
      rw [head, eq_of_widen wide]
  atom? {text text'} widened _ _ := by
    unfold atom?
    rw [← widened.peek?_eq]
    split
    · rw [Outcome.skipBlanks_map, Outcome.skipBlanks_map]
      exact (literal_widen options widened).map fun _ _ same => .some same
    · exact bare?_widen widened

private theorem TextWidens.dropReturns_eq {text text' : String} (same : TextWidens text text') :
    dropReturns text = dropReturns text' :=
  congrArg String.ofList same.filter_eq

private theorem TextWidens.eq_of_not_mem {text text' : String} (same : TextWidens text text')
    (noFeed : '\n' ∉ text.toList) : text = text' :=
  (String.toList_inj.1 (Widens.eq_of_not_mem same noFeed)).symm

/-- With carriage returns in front of its line feeds, a text fails to be read at the same position,
or is read as the same datum but for carriage returns in its atoms. Atoms without line feeds stay
what they are. -/
theorem read_withCrlf (options : ReadOptions) (text : String) (noReturn : '\r' ∉ text.toList) :
    (∃ e, read options text = .error e ∧ read options (withCrlf text) = .error e) ∨
      ∃ d d', read options text = .ok d ∧ read options (withCrlf text) = .ok d' ∧
        d.mapText dropReturns = d'.mapText dropReturns ∧
          ((∀ atom, .atom atom ∈ d.nodes → '\n' ∉ atom.toList) → d' = d) := by
  have widened := widened_skipBlanks (split text.toList)
  rw [← split_withCrlf noReturn] at widened
  rcases (widened_corresponds options).read_agree rfl .nil widened with
    ⟨d, d', ok, ok', alike⟩ | ⟨fault, before, before', _, _, left, front, front', fails, fails'⟩
  · refine .inr ⟨d, d', ok, ok', alike.mapText_eq fun _ _ _ same => same.dropReturns_eq, ?_⟩
    intro noFeed
    have same := alike.mapText_eq (f := id) (g := id) fun text _ inside same =>
      same.eq_of_not_mem (noFeed text inside)
    simpa using same.symm
  · -- The same units are left in both texts, and the wider ones move no position.
    obtain ⟨-, rfl⟩ := left
    rw [split_withCrlf noReturn, front, List.map_append] at front'
    obtain rfl := List.append_cancel_right front'
    rw [Position.behind_map_widen] at fails'
    exact .inl ⟨_, fails, fails'⟩

theorem read_withCrlf_literal :
    '\r' ∉ "(a\n\"b\n\")".toList ∧
      read ⟨" ", 2⟩ "(a\n\"b\n\")" = .ok (.list [.atom "a", .atom "b\n"]) ∧
        ∃ d, read ⟨" ", 2⟩ (withCrlf "(a\n\"b\n\")") = .ok d ∧
          (Datum.list [.atom "a", .atom "b\n"]).mapText dropReturns = d.mapText dropReturns := by
  have noReturn : '\r' ∉ "(a\n\"b\n\")".toList := by decide
  have narrow : read ⟨" ", 2⟩ "(a\n\"b\n\")" = .ok (.list [.atom "a", .atom "b\n"]) := by
    decide +kernel
  refine ⟨noReturn, narrow, ?_⟩
  rcases read_withCrlf ⟨" ", 2⟩ "(a\n\"b\n\")" noReturn with
    ⟨e, fails, -⟩ | ⟨d, d', ok, ok', same, -⟩
  · rw [narrow] at fails
    cases fails
  · rw [narrow] at ok
    cases ok
    exact ⟨d', ok', same⟩

end SExpr

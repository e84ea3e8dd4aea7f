import SExpr.Proofs.Grammar.Reading
import SExpr.Proofs.Place
import Mathlib.Data.Nat.Find
import Mathlib.Order.Monotone.Basic

namespace SExpr

open TextUnit

/-- What an outcome may become when a level more is allowed. -/
inductive Deeper {α : Type} : Outcome α → Outcome α → Prop where
  | same {o : Outcome α} (shallow : ∀ rest, o ≠ .error .tooDeep rest) : Deeper o o
  | further {o : Outcome α} {rest : List TextUnit} (shorter : o.rest.length < rest.length) :
      Deeper (.error .tooDeep rest) o

namespace Deeper

variable {α β : Type}

private theorem map {o o' : Outcome α} (h : Deeper o o') (f : α → β) :
    Deeper (o.map f) (o'.map f) := by
  cases h with
  | same shallow => exact .same fun rest fault => shallow rest (Outcome.map_eq_error_iff.1 fault)
  | further shorter => exact .further (by rwa [Outcome.rest_map])

private theorem skipBlanks {o o' : Outcome α} (h : Deeper o o') :
    Deeper o.skipBlanks o'.skipBlanks := by
  cases h with
  | same shallow =>
    exact .same fun rest fault => shallow rest (Outcome.skipBlanks_eq_error_iff.1 fault)
  | further shorter =>
    exact .further (Nat.lt_of_le_of_lt o'.rest_skipBlanks_suffix.length_le shorter)

private theorem closeList {o o' : Outcome (List Datum)} (h : Deeper o o') :
    Deeper (SExpr.closeList o) (SExpr.closeList o') := by
  cases h with
  | same shallow =>
    refine .same fun rest fault => ?_
    unfold SExpr.closeList at fault
    split at fault
    · cases fault
    · cases fault
    · cases fault
      exact shallow _ rfl
  | further shorter =>
    exact .further (Nat.lt_of_le_of_lt (closeList_suffix o').length_le shorter)

private theorem length_le {o o' : Outcome α} (h : Deeper o o') :
    o'.rest.length ≤ o.rest.length := by
  cases h with
  | same shallow => exact Nat.le_refl _
  | further shorter => exact Nat.le_of_lt shorter

private theorem eq_of_shallow {o o' : Outcome α} (h : Deeper o o')
    (shallow : ∀ rest, o ≠ .error .tooDeep rest) : o' = o := by
  cases h with
  | same _ => rfl
  | further _ => exact absurd rfl (shallow _)

section Sequence

variable {outcome : Nat → Outcome α} (h : ∀ n, Deeper (outcome n) (outcome (n + 1)))
include h

private theorem exists_shallow (n : Nat) : ∃ m, ∀ rest, outcome m ≠ .error .tooDeep rest := by
  -- Each further outcome leaves less, and none can leave less than nothing.
  generalize length_eq : (outcome n).rest.length = length
  induction length using Nat.strong_induction_on generalizing n with
  | _ length ih =>
    have next := h n
    generalize here : outcome n = o at next
    generalize there : outcome (n + 1) = o' at next
    cases next with
    | same shallow => exact ⟨n, here ▸ shallow⟩
    | further shorter =>
      rw [here] at length_eq
      exact ih _ (by rwa [there, ← length_eq]) (n + 1) rfl

/-- Outcomes that are too deep come first, each further on than the one before, and then all are
the same. -/
theorem exists_threshold :
    ∃ limit, (∀ n, limit ≤ n → outcome n = outcome limit) ∧
      (∀ rest, outcome limit ≠ .error .tooDeep rest) ∧
        ∀ n < limit, ∃ rest, outcome n = .error .tooDeep rest ∧
          ∀ m, n < m → (outcome m).rest.length < rest.length := by
  classical
  have exists_limit := exists_shallow h 0
  have shallow := Nat.find_spec exists_limit
  refine ⟨Nat.find exists_limit, fun n above => ?_, shallow, fun n below => ?_⟩
  · induction n, above using Nat.le_induction with
    | base => rfl
    | succ n above ih => exact ((h n).eq_of_shallow (ih ▸ shallow)).trans ih
  · have deep := Nat.find_min exists_limit below
    have antitone : Antitone fun n => (outcome n).rest.length :=
      antitone_nat_of_succ_le fun n => (h n).length_le
    have next := h n
    generalize here : outcome n = o at next
    generalize there : outcome (n + 1) = o' at next
    cases next with
    | same shallow => exact absurd (here ▸ shallow) deep
    | @further _ rest shorter =>
      refine ⟨rest, rfl, fun m above => Nat.lt_of_le_of_lt ?_ shorter⟩
      rw [← there]
      exact antitone above

end Sequence

end Deeper

section Levels

variable {options : ReadOptions} {inner wider : Production (Option Datum)}

private theorem markedWith_deeper (mark : QuoteMark) {text : List TextUnit}
    (h : Deeper (inner text) (wider text)) :
    Deeper (markedWith inner mark text) (markedWith wider mark text) := by
  have rest_eq := rest_markedWith wider mark text
  unfold markedWith at rest_eq ⊢
  generalize inner text = o at h
  generalize wider text = o' at h rest_eq
  cases h with
  | same shallow =>
    refine .same fun rest fault => ?_
    split at fault
    · cases fault
    · cases fault
    · cases fault
      exact shallow _ rfl
  | further shorter => exact .further (by rwa [rest_eq])

private theorem ItemRun.rest_suffix (reads : ReadsExpressions inner) {text : List TextUnit}
    {o : Outcome (List Datum)} (run : ItemRun inner text o) : o.rest <:+ (inner text).rest := by
  cases run with
  | stop absent => rw [absent]; exact List.suffix_rfl
  | fail fails => rw [fails]; exact List.suffix_rfl
  | item first others =>
    rw [first, Outcome.rest_map]
    exact others.suffix reads

private theorem ItemRun.deeper (reads : ReadsExpressions wider)
    (h : ∀ text, Deeper (inner text) (wider text)) {text : List TextUnit}
    {o : Outcome (List Datum)} (run : ItemRun inner text o) :
    ∃ o', ItemRun wider text o' ∧ Deeper o o' := by
  induction run with
  | @stop text rest absent =>
    have here := h text
    rw [absent] at here
    generalize wider_eq : wider text = o' at here
    cases here with
    | same => exact ⟨_, .stop wider_eq, .same (by simp)⟩
  | @fail text rest fault fails =>
    have here := h text
    rw [fails] at here
    generalize wider_eq : wider text = o' at here
    cases here with
    | same shallow =>
      refine ⟨_, .fail wider_eq, .same fun rest fault => shallow rest ?_⟩
      cases fault
      rfl
    | further shorter =>
      -- Whatever the items are further down, they leave no more than the first of them does.
      obtain ⟨o', run⟩ := exists_itemRun reads text
      refine ⟨o', run, .further (Nat.lt_of_le_of_lt ?_ shorter)⟩
      rw [← wider_eq]
      exact (run.rest_suffix reads).length_le
  | @item text mid d o first others ih =>
    have here := h text
    rw [first] at here
    generalize wider_eq : wider text = o' at here
    cases here with
    | same =>
      obtain ⟨o', run, goesOn⟩ := ih
      exact ⟨_, .item wider_eq run, goesOn.map _⟩

private theorem exprWith_atom_deeper {wider : Option (Production (Option Datum))}
    (reads : ∀ production ∈ wider, ReadsExpressions production) {text : List TextUnit}
    (unmarked : mark? (skipBlanks text) = none) (notOpening : peek? (skipBlanks text) ≠ some '(') :
    Deeper ((atom? options (skipBlanks text)).map (Option.map .atom)).skipBlanks
      (exprWith options wider text) := by
  rw [(ExprStep.atom unmarked notOpening).exprWith_eq reads]
  refine .same fun rest fault => ?_
  rw [Outcome.skipBlanks_eq_error_iff, Outcome.map_eq_error_iff] at fault
  cases (atom?_error fault).1

private theorem exprWith_none_deeper (reads : ReadsExpressions wider) (text : List TextUnit) :
    Deeper (exprWith options none text) (exprWith options (some wider) text) := by
  have reads : ∀ production ∈ some wider, ReadsExpressions production := by simpa using reads
  have step := (exprWith_eq_iff (by simp)).1 (rfl : exprWith options none text = _)
  generalize exprWith options none text = o at step
  cases step with
  | limit front level =>
    have step' := (exprWith_eq_iff reads).1 (rfl : exprWith options (some wider) text = _)
    exact .further (step'.begun (reads wider rfl) front level)
  | atom unmarked notOpening => exact exprWith_atom_deeper reads unmarked notOpening

private theorem exprWith_deeper (reads : ReadsExpressions inner) (reads' : ReadsExpressions wider)
    (h : ∀ text, Deeper (inner text) (wider text)) (text : List TextUnit) :
    Deeper (exprWith options (some inner) text) (exprWith options (some wider) text) := by
  have reads : ∀ production ∈ some inner, ReadsExpressions production := by simpa using reads
  have reads' : ∀ production ∈ some wider, ReadsExpressions production := by simpa using reads'
  have step := (exprWith_eq_iff reads).1 (rfl : exprWith options (some inner) text = _)
  generalize exprWith options (some inner) text = o at step
  cases step with
  | marked front =>
    rw [(ExprStep.marked front).exprWith_eq reads']
    exact (markedWith_deeper _ (h _)).map some
  | list front items =>
    obtain ⟨o', items', goesOn⟩ := items.deeper (reads' wider rfl) h
    rw [(ExprStep.list front items').exprWith_eq reads']
    exact (goesOn.closeList.map some).skipBlanks
  | atom unmarked notOpening => exact exprWith_atom_deeper reads' unmarked notOpening

private theorem exprAt_deeper (options : ReadOptions) (depth : Nat) (text : List TextUnit) :
    Deeper (exprAt options depth text) (exprAt options (depth + 1) text) := by
  induction depth generalizing text with
  | zero => exact exprWith_none_deeper (exprAt_readsExpressions options 0) text
  | succ depth ih =>
    exact exprWith_deeper (exprAt_readsExpressions options depth)
      (exprAt_readsExpressions options (depth + 1)) ih text

end Levels

section Threshold

theorem exprAt_maxDepth (emptyLiteral : String) (limit limit' depth : Nat) :
    exprAt ⟨emptyLiteral, limit⟩ depth = exprAt ⟨emptyLiteral, limit'⟩ depth := by
  induction depth with
  | zero => rfl
  | succ depth ih =>
    funext text
    rw [exprAt, exprAt, ih]
    rfl

private theorem document_deeper (emptyLiteral : String) (depth : Nat) (text : List TextUnit) :
    Deeper (document ⟨emptyLiteral, depth⟩ text) (document ⟨emptyLiteral, depth + 1⟩ text) := by
  have goesOn := exprAt_deeper ⟨emptyLiteral, depth⟩ depth text
  have rest_eq := rest_document ⟨emptyLiteral, depth + 1⟩ text
  rw [exprAt_maxDepth emptyLiteral depth (depth + 1) (depth + 1)] at goesOn
  simp only [document] at rest_eq ⊢
  generalize exprAt ⟨emptyLiteral, depth⟩ depth text = o at goesOn
  generalize exprAt ⟨emptyLiteral, depth + 1⟩ (depth + 1) text = o' at goesOn rest_eq
  cases goesOn with
  | same shallow =>
    refine .same fun rest fault => ?_
    cases o with
    | error fault' rest' =>
      cases fault
      exact shallow _ rfl
    | ok d? more =>
      cases more <;> simp [textEnd] at fault
  | further shorter => exact .further (by rwa [rest_eq])

private theorem read_of_depth_le {emptyLiteral : String} {limit : Nat} {text : String} {d : Datum}
    (h : read ⟨emptyLiteral, limit⟩ text = .ok d) :
    d.depth ≤ limit ∧ read ⟨emptyLiteral, d.depth⟩ text = .ok d := by
  rw [read_eq_ok_iff_exprAt] at h ⊢
  rcases h with ⟨none_eq, rfl⟩ | some_eq
  · rw [Datum.depth_atom]
    have absent := ((exprAt_readsExpressions _ _).absent _ _).1 none_eq
    exact ⟨Nat.zero_le _, .inl ⟨((exprAt_readsExpressions _ _).absent _ _).2 absent, rfl⟩⟩
  · obtain ⟨lexemes, scans, derives, shallow⟩ := exprAt_eq_ok_some_iff.1 some_eq
    refine ⟨shallow, .inr ?_⟩
    rw [exprAt_maxDepth emptyLiteral d.depth limit]
    exact exprAt_eq_ok_some_iff.2 ⟨lexemes, scans, derives, Nat.le_refl _⟩

private theorem exists_read_threshold (emptyLiteral text : String) :
    ∃ limit, (∀ depth, limit ≤ depth →
        read ⟨emptyLiteral, depth⟩ text = read ⟨emptyLiteral, limit⟩ text) ∧
      (∀ e, read ⟨emptyLiteral, limit⟩ text = .error e → e.fault ≠ .tooDeep) ∧
        ∀ depth < limit, ∃ place, read ⟨emptyLiteral, depth⟩ text = .error ⟨.tooDeep, place⟩ ∧
          ∀ depth' e, depth < depth' → read ⟨emptyLiteral, depth'⟩ text = .error e →
            place < e.position := by
  obtain ⟨limit, above, shallow, below⟩ :=
    Deeper.exists_threshold fun depth => document_deeper emptyLiteral depth (split text.toList)
  refine ⟨limit, fun depth h => ?_, fun e fails deep => ?_, fun depth h => ?_⟩
  · rw [read_eq, read_eq, above depth h]
  · obtain ⟨_, rest, -, document_eq, -⟩ := read_eq_error_iff.1 fails
    exact shallow rest (deep ▸ document_eq)
  · obtain ⟨rest, document_eq, further⟩ := below depth h
    obtain ⟨before, units_eq⟩ := document_forward ⟨emptyLiteral, depth⟩ (split text.toList)
    rw [document_eq] at units_eq
    refine ⟨Position.behind before,
      read_eq_error_iff.2 ⟨before, rest, units_eq.symm, document_eq, rfl⟩, ?_⟩
    intro depth' e deeper fails
    obtain ⟨before', rest', units_eq', document_eq', position_eq⟩ := read_eq_error_iff.1 fails
    have shorter := further depth' deeper
    rw [document_eq'] at shorter
    rw [position_eq]
    exact Position.behind_lt_behind units_eq.symm units_eq' shorter

/-- A text that is read within some limit is read alike within every limit that its datum is no
deeper than, and is too deep for all others. -/
theorem read_of_found {emptyLiteral : String} {limit : Nat} {text : String} {d : Datum}
    (found : read ⟨emptyLiteral, limit⟩ text = .ok d) (depth : Nat) :
    (d.depth ≤ depth → read ⟨emptyLiteral, depth⟩ text = .ok d) ∧
      (depth < d.depth → ∃ place, read ⟨emptyLiteral, depth⟩ text = .error ⟨.tooDeep, place⟩) := by
  obtain ⟨threshold, above, -, below⟩ := exists_read_threshold emptyLiteral text
  have least := (read_of_depth_le found).2
  have reached : threshold ≤ d.depth := by
    apply Nat.le_of_not_lt
    intro deep
    obtain ⟨place, fails, -⟩ := below d.depth deep
    rw [fails] at least
    cases least
  have at_threshold : read ⟨emptyLiteral, threshold⟩ text = .ok d := by
    rw [← above d.depth reached]
    exact least
  constructor
  · intro enough
    rw [above depth (Nat.le_trans reached enough)]
    exact at_threshold
  · intro deep
    apply (below depth _).imp
    · intro place fails
      exact fails.1
    · apply Nat.lt_of_not_le
      intro shallow
      rw [← above depth shallow] at at_threshold
      have enough := (read_of_depth_le at_threshold).1
      omega

/-- The depth limit is a threshold. Below it a text is too deep, at a place that moves on with every
level, and from it on the result is the same. A text that is read is read from the depth of its
datum on. -/
theorem read_maxDepth_threshold (emptyLiteral text : String) :
    ∃ (limit : Nat) (result : Except ReadError Datum) (place : Nat → Position),
      (∀ depth, limit ≤ depth → read ⟨emptyLiteral, depth⟩ text = result) ∧
        (∀ e, result = .error e → e.fault ≠ .tooDeep) ∧
        (∀ depth < limit, read ⟨emptyLiteral, depth⟩ text = .error ⟨.tooDeep, place depth⟩) ∧
        (∀ depth depth', depth < depth' → depth' < limit → place depth < place depth') ∧
        (∀ e, result = .error e → ∀ depth < limit, place depth < e.position) ∧
        ∀ d, result = .ok d → limit = d.depth ∧
          ∀ depth d', read ⟨emptyLiteral, depth⟩ text = .ok d' ↔ d.depth ≤ depth ∧ d' = d := by
  obtain ⟨limit, above, shallow, below⟩ := exists_read_threshold emptyLiteral text
  have : Nonempty Position := ⟨.start⟩
  choose! place fails further using below
  refine ⟨limit, read ⟨emptyLiteral, limit⟩ text, place, above, shallow, fails, ?_, ?_, ?_⟩
  · intro depth depth' deeper h
    exact further depth (Nat.lt_trans deeper h) depth' _ deeper (fails depth' h)
  · intro e last depth h
    exact further depth h limit e h last
  · intro d found
    obtain ⟨enough, least⟩ := read_of_depth_le found
    have limit_eq : limit = d.depth := by
      refine Nat.le_antisymm (Nat.le_of_not_lt fun deep => ?_) enough
      rw [fails _ deep] at least
      cases least
    refine ⟨limit_eq, fun depth d' => ⟨fun found' => ?_, ?_⟩⟩
    · have reached : limit ≤ depth := by
        apply Nat.le_of_not_lt
        intro deep
        rw [fails _ deep] at found'
        cases found'
      rw [above depth reached, found] at found'
      cases found'
      exact ⟨limit_eq ▸ reached, rfl⟩
    · rintro ⟨reached, rfl⟩
      rw [above depth (limit_eq ▸ reached), found]

end Threshold

end SExpr

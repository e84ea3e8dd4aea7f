import SExpr.Proofs.Session

namespace SExpr

open TextUnit

/-- The position `p` of a text that begins at `origin`. Only its first line begins there. -/
def Position.translate (origin p : Position) : Position :=
  if p.line = 0 then ⟨origin.line, origin.column + p.column⟩ else ⟨origin.line + p.line, p.column⟩

def ReadError.translate (origin : Position) (e : ReadError) : ReadError :=
  { e with position := origin.translate e.position }

section Positions

@[simp] theorem Position.translate_start (origin : Position) : origin.translate start = origin := by
  simp [translate, start]

private theorem Position.translate_after (origin p : Position) (u : TextUnit) :
    origin.translate (p.after u) = (origin.translate p).after u := by
  by_cases ends : u.endsLine
  · by_cases first : p.line = 0
    · simp [translate, after, ends, first]
    · simp [translate, after, ends, first, Nat.add_assoc]
  · by_cases first : p.line = 0
    · simp [translate, after, ends, first, Nat.add_assoc]
    · simp [translate, after, ends, first]

theorem Position.foldl_after_eq (origin : Position) (units : List TextUnit) :
    units.foldl after origin = origin.translate (behind units) := by
  induction units using List.reverseRecOn with
  | nil => exact (translate_start origin).symm
  | append_singleton units u ih =>
    have step : behind (units ++ [u]) = (behind units).after u := List.foldl_append
    rw [List.foldl_append, ih, step, translate_after]
    rfl

private theorem Position.behind_append (before more : List TextUnit) :
    behind (before ++ more) = (behind before).translate (behind more) := by
  rw [← foldl_after_eq, behind, List.foldl_append, behind]

end Positions

namespace Reader

theorem run_translate {α : Type} {production : Production α} (forward : Forward production)
    {r : Reader} (fresh : Reader) {text rest : String} {before : List TextUnit}
    (passed : r.cursor.HasPassed text before) (begins : fresh.cursor.HasPassed rest [])
    (same : fresh.cursor.rest = r.cursor.rest) :
    (r.run production).1 =
        (fresh.run production).1.mapError (·.translate r.cursor.position) ∧
      (r.run production).2.cursor.rest = (fresh.run production).2.cursor.rest ∧
      (r.run production).2.cursor.offset =
        r.cursor.offset + (fresh.run production).2.cursor.offset ∧
      (r.run production).2.cursor.position =
        r.cursor.position.translate (fresh.run production).2.cursor.position := by
  obtain ⟨taken, rest_eq, goesOn⟩ := r.run_hasPassed forward passed
  obtain ⟨taken', rest_eq', begun⟩ := fresh.run_hasPassed forward begins
  -- Both leave the same, and so have taken the same.
  obtain rfl : taken' = taken := by
    rw [same] at rest_eq'
    exact List.append_cancel_right (rest_eq'.symm.trans rest_eq)
  rw [List.nil_append] at begun
  have position_eq : (r.run production).2.cursor.position =
      r.cursor.position.translate (fresh.run production).2.cursor.position := by
    rw [goesOn.position, begun.position, passed.position, Position.behind_append]
  refine ⟨?_, ?_, ?_, position_eq⟩
  · simp only [run] at position_eq ⊢
    rw [position_eq, same]
    cases production r.cursor.rest with
    | ok value rest => rfl
    | error fault rest => rfl
  · rw [rest_run forward, rest_run forward, same]
  · rw [goesOn.offset, begun.offset, passed.offset, join_append, String.ofList_append,
      String.utf8ByteSize_append]

/-- Whatever was asked of a reader before, it answers as a reader does that begins with the text
that is left. Places and errors are the same but for where that begins. -/
theorem answer_after_eq_translate (options : ReadOptions) (text : String)
    (requests : List Request) :
    ∃ before rest : String, text = before ++ rest ∧
      ((ofText options text).after requests).cursor.StandsBehind before text ∧
        ∀ request : Request,
          let under := (ofText options text).after requests
          let here := under.answer request
          let fresh := (ofText options rest).answer request
          here.1 = fresh.1.mapError (·.translate under.cursor.position) ∧
            here.2.cursor.rest = fresh.2.cursor.rest ∧
            here.2.cursor.offset = before.utf8ByteSize + fresh.2.cursor.offset ∧
            here.2.cursor.position = under.cursor.position.translate fresh.2.cursor.position := by
  obtain ⟨units, passed⟩ := after_hasPassed options text requests
  have stands := passed.standsBehind
  have options_eq := options_after requests (ofText options text)
  generalize (ofText options text).after requests = under at *
  refine ⟨String.ofList (join units), String.ofList (join under.cursor.rest), ?_, stands, ?_⟩
  · rw [← String.ofList_append, ← passed.toList_eq, String.ofList_toList]
  · intro request
    have moved := run_translate (Request.production_forward options request)
      (ofText options (String.ofList (join under.cursor.rest))) passed (.ofText _) passed.split_rest
    rw [stands.offset] at moved
    simp only [answer_eq_run, options_eq]
    exact moved

end Reader

end SExpr

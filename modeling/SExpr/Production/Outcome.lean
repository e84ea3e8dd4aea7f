import SExpr.ReadError

/-!
# Outcomes of productions

Whether a production succeeds or fails, what it leaves of the text is where the reader stands, and
in a failure it is the place to report.
-/

namespace SExpr

/-- A value or a fault, with the text that is left. -/
inductive Outcome (α : Type) where
  | ok (value : α) (rest : List TextUnit)
  | error (fault : Fault) (rest : List TextUnit)
  deriving DecidableEq

abbrev Production (α : Type) := List TextUnit → Outcome α

namespace Outcome

variable {α β : Type}

def rest : Outcome α → List TextUnit
  | .ok _ rest => rest
  | .error _ rest => rest

def toExcept : Outcome α → Except Fault α
  | .ok value _ => .ok value
  | .error fault _ => .error fault

def map (f : α → β) : Outcome α → Outcome β
  | .ok value rest => .ok (f value) rest
  | .error fault rest => .error fault rest

/-- Goes on over blanks after a success, and stays in place after a failure. -/
def skipBlanks : Outcome α → Outcome α
  | .ok value rest => .ok value (SExpr.skipBlanks rest)
  | .error fault rest => .error fault rest

@[simp] theorem rest_ok (value : α) (rest : List TextUnit) : (Outcome.ok value rest).rest = rest :=
  rfl

@[simp] theorem rest_error (fault : Fault) (rest : List TextUnit) :
    (Outcome.error fault rest : Outcome α).rest = rest :=
  rfl

@[simp] theorem map_ok (f : α → β) (value : α) (rest : List TextUnit) :
    (Outcome.ok value rest).map f = .ok (f value) rest :=
  rfl

@[simp] theorem map_error (f : α → β) (fault : Fault) (rest : List TextUnit) :
    (Outcome.error fault rest : Outcome α).map f = .error fault rest :=
  rfl

@[simp] theorem rest_map (f : α → β) (o : Outcome α) : (o.map f).rest = o.rest := by
  cases o <;> rfl

@[simp] theorem skipBlanks_ok (value : α) (rest : List TextUnit) :
    (Outcome.ok value rest).skipBlanks = .ok value (SExpr.skipBlanks rest) :=
  rfl

@[simp] theorem skipBlanks_error (fault : Fault) (rest : List TextUnit) :
    (Outcome.error fault rest : Outcome α).skipBlanks = .error fault rest :=
  rfl

theorem map_eq_ok_iff {f : α → β} {o : Outcome α} {value : β} {rest : List TextUnit} :
    o.map f = .ok value rest ↔ ∃ a, o = .ok a rest ∧ f a = value := by
  cases o with
  | ok a more =>
    simp only [map_ok, ok.injEq]
    exact ⟨fun ⟨h, same⟩ => ⟨a, ⟨rfl, same⟩, h⟩, fun ⟨_, ⟨rfl, same⟩, h⟩ => ⟨h, same⟩⟩
  | error fault more => simp

@[simp] theorem map_eq_error_iff {f : α → β} {o : Outcome α} {fault : Fault}
    {rest : List TextUnit} : o.map f = .error fault rest ↔ o = .error fault rest := by
  cases o <;> simp

theorem skipBlanks_eq_ok_iff {o : Outcome α} {value : α} {rest : List TextUnit} :
    o.skipBlanks = .ok value rest ↔ ∃ more, o = .ok value more ∧ SExpr.skipBlanks more = rest := by
  cases o with
  | ok a more => simp [and_assoc]
  | error fault more => simp

@[simp] theorem skipBlanks_eq_error_iff {o : Outcome α} {fault : Fault} {rest : List TextUnit} :
    o.skipBlanks = .error fault rest ↔ o = .error fault rest := by
  cases o <;> simp

end Outcome

end SExpr

import Mathlib.Computability.StateTransition
import Mathlib.Tactic

/-
  Loops over the positions of a text or of its bytes.

  A step of such a loop reads at positions, and fails if
  there is nothing to be read.  A loop returns a result if
  it comes to an end there: it does not go on forever, and
  none of the steps on its way fails.

  Main declarations:
    * `Loop.State`
    * `Loop.Returns`
    * `Loop.returns_of_finished`
    * `Loop.returns_iff`
-/

------------------------------------------------------------
-- Loops
------------------------------------------------------------

namespace ComponentLoader

namespace Loop

/- How far a loop has come. -/
inductive State (σ α : Type) where
  /- It is to take a step. -/
  | running (s : σ)
  /- It has a result. -/
  | finished (result : α)
  /- It was to read what is not there. -/
  | failed

section

variable {σ α β : Type}

/- Go on with what is read, if there is something. -/
def reading
    (read? : Option β)
    (next : β → State σ α) : State σ α :=
  match read? with
  | some b => next b
  | none => .failed

@[simp] theorem reading_some
    (b : β)
    (next : β → State σ α) :
    reading (some b) next = next b :=
  rfl

/- Take a step, unless the loop is at its end. -/
def next?
    (step : σ → State σ α) :
    State σ α → Option (State σ α)
  | .running s => some (step s)
  | .finished _ => none
  | .failed => none

/- Whether a loop comes to its end with a result. -/
def Returns
    (step : σ → State σ α)
    (s : σ)
    (result : α) : Prop :=
  StateTransition.eval (next? step) (.running s) =
    Part.some (.finished result)

variable {step : σ → State σ α}
variable {s : σ}
variable {result : α}

theorem reaches_step
    (step : σ → State σ α)
    (s : σ) :
    StateTransition.Reaches (next? step) (.running s)
      (step s) :=
  Relation.ReflTransGen.single rfl

/- A loop returns what its last step comes to. -/
theorem returns_of_finished
    (hStep : step s = .finished result) :
    Returns step s result := by
  have hReaches := reaches_step step s
  rw [hStep] at hReaches
  exact Part.eq_some_iff.mpr
    (StateTransition.mem_eval.mpr ⟨hReaches, rfl⟩)

/- A step that goes on does not change what is returned. -/
theorem returns_iff
    {s' : σ}
    (hStep : step s = .running s') :
    Returns step s result ↔ Returns step s' result := by
  have hReaches := reaches_step step s
  rw [hStep] at hReaches
  unfold Returns
  rw [StateTransition.reaches_eval hReaches]

end

end Loop

end ComponentLoader

import EffectHost.Proofs.Code.Trace
import EffectHost.Proofs.Effect.Grounded

/-!
# The calls of a cycle

Code runs in the steps of cycles and states, and in drawing passes.  The calls of a list of
steps are those of its programs in order, each with the caller that makes it and the state
that it finds.
-/

namespace EffectHost

/-- A call that code makes which does not draw. -/
structure CodeCall where
  caller : Caller
  call : TracedCall Surroundings

namespace Effect

variable {σ : Type} {painter : Painter σ}

/-- The calls that code makes in a step. -/
def callsOf (effect : Effect σ) : Step → List CodeCall
  | .run caller id =>
    (Code.calls (effect.codeHost caller) (effect.programOf id) (effect.store, effect.around)).map
      (CodeCall.mk caller)
  | _ => []

/-- The calls that code makes in steps in a row. -/
def callsIn (effect : Effect σ) : List Step → List CodeCall
  | [] => []
  | step :: others => effect.callsOf step ++ (effect.perform step).callsIn others

/-- Without a program no calls are made. -/
theorem callsOf_of_program? (effect : Effect σ) {step : Step} (quiet : step.program? = none) :
    effect.callsOf step = [] := by
  cases step with
  | run caller id => cases quiet
  | _ => rfl

@[simp] theorem callsIn_nil (effect : Effect σ) : effect.callsIn [] = [] :=
  rfl

@[simp] theorem callsIn_append (effect : Effect σ) (first second : List Step) :
    effect.callsIn (first ++ second) =
      effect.callsIn first ++ (effect.performAll first).callsIn second := by
  induction first generalizing effect with
  | nil => rfl
  | cons step others ih =>
      rw [List.cons_append, callsIn, ih, callsIn, List.append_assoc]
      rfl

/-- The steps of a moment. -/
def stepsOf (effect : Effect σ) : Moment σ → List Step
  | .cycle (.process _ inputs outputs frames) => effect.cycleSteps inputs outputs frames
  | .saveState => effect.saveSteps
  | .loadState state => effect.loadSteps state
  | _ => []

end Effect
end EffectHost

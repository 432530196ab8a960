import EffectHost.Code.Run

/-!
# What running code preserves

Code changes the store by itself and everything else through its host.  What a write to a
variable, a write to memory and a call of the host each preserve is therefore preserved
by every program.
-/

namespace EffectHost

open Code

/-- Neither writing to the store nor calling the host breaks a property. -/
structure CodeHost.Preserves {σ : Type} (host : CodeHost σ) (holds : Store × σ → Prop) :
    Prop where
  set : ∀ (cell : Cell) (value : Float) (store : Store) (outer : σ),
    holds (store, outer) → holds (store.set cell value, outer)
  writeItem : ∀ (position value : Float) (store : Store) (outer : σ),
    holds (store, outer) → holds (store.writeItem position value, outer)
  call : ∀ (name : String) (args : List Arg) (state : Store × σ),
    holds state → holds (host.call name args state).2

namespace Code

variable {σ : Type} {host : CodeHost σ} {holds : Store × σ → Prop}

/-- Each argument is evaluated in the state that those in front of it leave. -/
theorem evalArgs_cons_snd (host : CodeHost σ) (argument : Expr Cell Nat)
    (others : List (Expr Cell Nat)) (state : Store × σ) :
    (evalArgs host (argument :: others) state).2 =
      (evalArgs host others (eval host argument state).2).2 := by
  cases argument <;> rfl

mutual

theorem eval_preserves (preserves : host.Preserves holds) :
    ∀ (expression : Expr Cell Nat) (state : Store × σ), holds state →
      holds (eval host expression state).2
  | .number _, _, before => before
  | .text _, _, before => before
  | .variable _, _, before => before
  | .item base index, state, before =>
      eval_preserves preserves index _ (eval_preserves preserves base state before)
  | .negate operand, state, before => eval_preserves preserves operand state before
  | .binary _ left right, state, before =>
      eval_preserves preserves right _ (eval_preserves preserves left state before)
  | .call function arguments, state, before =>
      preserves.call function _ _ (evalArgs_preserves preserves arguments state before)
  | .assign cell value, state, before =>
      preserves.set cell _ _ _ (eval_preserves preserves value state before)
  | .assignItem base index value, state, before =>
      preserves.writeItem _ _ _ _ (eval_preserves preserves value _
        (eval_preserves preserves index _ (eval_preserves preserves base state before)))

theorem evalArgs_preserves (preserves : host.Preserves holds) :
    ∀ (arguments : List (Expr Cell Nat)) (state : Store × σ), holds state →
      holds (evalArgs host arguments state).2
  | [], _, before => before
  | argument :: others, state, before => by
      rw [evalArgs_cons_snd]
      exact evalArgs_preserves preserves others _
        (eval_preserves preserves argument state before)

end

/-- What single steps preserve, a program preserves. -/
theorem run_preserves (preserves : host.Preserves holds) (program : Program)
    (state : Store × σ) (before : holds state) : holds (run host program state) := by
  induction program generalizing state with
  | nil => exact before
  | cons statement others ih =>
      exact ih _ (eval_preserves preserves statement state before)

end Code
end EffectHost

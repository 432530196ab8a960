import EffectHost.Code.Run

/-!
# Two runs of the same code

Code that does not refer to some cells cannot tell two states apart that differ only
there.  This holds for all code if it holds for the functions of the host: the values
that the code computes are the same in both runs, and the states that it leaves are again
related.
-/

namespace EffectHost
namespace Code

mutual

/-- The variables that an expression refers to. -/
def Expr.variables {ν τ : Type} : Expr ν τ → List ν
  | .number _ | .text _ => []
  | .variable name => [name]
  | .item base index => base.variables ++ index.variables
  | .negate operand => operand.variables
  | .binary _ left right => left.variables ++ right.variables
  | .call _ arguments => variablesOfAll arguments
  | .assign name value => name :: value.variables
  | .assignItem base index value => base.variables ++ index.variables ++ value.variables
termination_by structural expression => expression

/-- The variables that some expressions refer to. -/
def variablesOfAll {ν τ : Type} : List (Expr ν τ) → List ν
  | [] => []
  | first :: others => first.variables ++ variablesOfAll others
termination_by structural expressions => expressions

end

/-- The cell of an expression that is a plain variable. -/
def Expr.cell? : Expr Cell Nat → Option Cell
  | .variable cell => some cell
  | _ => none

theorem Expr.mem_variables_of_cell? {expression : Expr Cell Nat} {cell : Cell}
    (plain : expression.cell? = some cell) : cell ∈ expression.variables := by
  unfold Expr.cell? at plain
  split at plain
  · cases plain
    exact List.mem_cons_self
  · cases plain

/-- An argument has its value and, if it is a plain variable, its cell. -/
theorem evalArgs_cons {σ : Type} (host : CodeHost σ) (argument : Expr Cell Nat)
    (others : List (Expr Cell Nat)) (state : Store × σ) :
    evalArgs host (argument :: others) state =
      let first := eval host argument state
      let rest := evalArgs host others first.2
      (⟨first.1, argument.cell?⟩ :: rest.1, rest.2) := by
  cases argument <;> rfl

end Code

open Code

/-- All cells of a program are among the visible ones. -/
def Program.Within (visible : Cell → Prop) (program : Program) : Prop :=
  ∀ cell ∈ variablesOfAll program, visible cell

/-- The variables among some arguments are visible. -/
def ArgsWithin (visible : Cell → Prop) (args : List Arg) : Prop :=
  ∀ arg ∈ args, ∀ cell, arg.cell? = some cell → visible cell

/-- Related states look the same to code that refers to visible cells only, and remain
related under what such code does. -/
structure CodeHost.Respects {σ : Type} (host : CodeHost σ) (visible : Cell → Prop)
    (related : Store × σ → Store × σ → Prop) : Prop where
  get : ∀ {first second : Store × σ} {cell : Cell}, related first second → visible cell →
    first.1.get cell = second.1.get cell
  readItem : ∀ {first second : Store × σ} (position : Float), related first second →
    first.1.readItem position = second.1.readItem position
  set : ∀ {first second : Store × σ} {cell : Cell} (value : Float), related first second →
    visible cell → related (first.1.set cell value, first.2) (second.1.set cell value, second.2)
  writeItem : ∀ {first second : Store × σ} (position value : Float), related first second →
    related (first.1.writeItem position value, first.2)
      (second.1.writeItem position value, second.2)
  call : ∀ {first second : Store × σ} (name : String) {args : List Arg}, related first second →
    ArgsWithin visible args →
      (host.call name args first).1 = (host.call name args second).1 ∧
        related (host.call name args first).2 (host.call name args second).2

namespace Code

variable {σ : Type} {host : CodeHost σ} {visible : Cell → Prop}
  {related : Store × σ → Store × σ → Prop}

/-- Two results agree if their values are equal and their states related. -/
def Agree {α : Type} (related : Store × σ → Store × σ → Prop)
    (first second : α × Store × σ) : Prop :=
  first.1 = second.1 ∧ related first.2 second.2

mutual

theorem eval_agrees (respects : host.Respects visible related) :
    ∀ (expression : Expr Cell Nat) (first second : Store × σ),
      (∀ cell ∈ expression.variables, visible cell) → related first second →
        Agree related (eval host expression first) (eval host expression second)
  | .number _, _, _, _, before => ⟨rfl, before⟩
  | .text _, _, _, _, before => ⟨rfl, before⟩
  | .variable cell, _, _, within, before =>
      ⟨respects.get before (within cell List.mem_cons_self), before⟩
  | .item base index, first, second, within, before => by
      rw [Expr.variables, List.forall_mem_append] at within
      have left := eval_agrees respects base first second within.1 before
      have right := eval_agrees respects index _ _ within.2 left.2
      simp only [eval, left.1, right.1]
      exact ⟨respects.readItem _ right.2, right.2⟩
  | .negate operand, first, second, within, before => by
      have inner := eval_agrees respects operand first second within before
      simp only [eval, inner.1]
      exact ⟨rfl, inner.2⟩
  | .binary op left right, first, second, within, before => by
      rw [Expr.variables, List.forall_mem_append] at within
      have earlier := eval_agrees respects left first second within.1 before
      have later := eval_agrees respects right _ _ within.2 earlier.2
      simp only [eval, earlier.1, later.1]
      exact ⟨rfl, later.2⟩
  | .call function arguments, first, second, within, before => by
      rcases evalArgs_agrees respects arguments first second within before with
        ⟨⟨values, states⟩, named⟩
      have called := respects.call function states named
      simp only [eval, values] at called ⊢
      exact ⟨congrArg (Option.getD · 0.0) called.1, called.2⟩
  | .assign cell value, first, second, within, before => by
      rw [Expr.variables, List.forall_mem_cons] at within
      have inner := eval_agrees respects value first second within.2 before
      simp only [eval, inner.1]
      exact ⟨rfl, respects.set _ inner.2 within.1⟩
  | .assignItem base index value, first, second, within, before => by
      rw [Expr.variables, List.forall_mem_append, List.forall_mem_append] at within
      have left := eval_agrees respects base first second within.1.1 before
      have right := eval_agrees respects index _ _ within.1.2 left.2
      have inner := eval_agrees respects value _ _ within.2 right.2
      simp only [eval, left.1, right.1, inner.1]
      exact ⟨rfl, respects.writeItem _ _ inner.2⟩

theorem evalArgs_agrees (respects : host.Respects visible related) :
    ∀ (arguments : List (Expr Cell Nat)) (first second : Store × σ),
      (∀ cell ∈ variablesOfAll arguments, visible cell) → related first second →
        Agree related (evalArgs host arguments first) (evalArgs host arguments second) ∧
          ArgsWithin visible (evalArgs host arguments first).1
  | [], _, _, _, before => ⟨⟨rfl, before⟩, List.forall_mem_nil _⟩
  | argument :: others, first, second, within, before => by
      rw [variablesOfAll, List.forall_mem_append] at within
      have head := eval_agrees respects argument first second within.1 before
      have tail := evalArgs_agrees respects others _ _ within.2 head.2
      rw [evalArgs_cons, evalArgs_cons]
      refine ⟨⟨?_, tail.1.2⟩, List.forall_mem_cons.mpr ⟨?_, tail.2⟩⟩
      · simp only [head.1, tail.1.1]
      · intro cell plain
        exact within.1 cell (Expr.mem_variables_of_cell? plain)

end

/-- A program that refers to visible cells only leaves related states. -/
theorem run_agrees (respects : host.Respects visible related) {program : Program}
    (within : program.Within visible) {first second : Store × σ}
    (before : related first second) :
    related (run host program first) (run host program second) := by
  induction program generalizing first second with
  | nil => exact before
  | cons statement others ih =>
      rw [Program.Within, variablesOfAll, List.forall_mem_append] at within
      exact ih within.2 (eval_agrees respects statement first second within.1 before).2

end Code
end EffectHost

import EffectHost.Code.Machine

/-!
# Running a program

The statements of a program are evaluated in order, and so are the parts of an
expression.  Functions are provided by a host, which sees the store and a state of its
own.  An argument that is a plain variable is passed together with its cell, so that the
host can write to it; its value is the one at the time of passing.
-/

namespace EffectHost

open Code

/-- An argument of a function call. -/
structure Arg where
  value : Float
  /-- The cell, if the argument is a plain variable. -/
  cell? : Option Cell := none

/-- Write to the variable of an argument, if it is one. -/
def Arg.assign (arg : Arg) (store : Store) (value : Float) : Store :=
  match arg.cell? with
  | some cell => store.set cell value
  | none => store

/-- Whoever provides the functions: the value of a call, if the function is provided, and
the state afterwards. -/
structure CodeHost (σ : Type) where
  call : String → List Arg → Store × σ → Option Float × Store × σ

namespace Code

variable {σ : Type}

mutual

/-- Evaluate an expression. -/
def eval (host : CodeHost σ) : Expr Cell Nat → Store × σ → Float × Store × σ
  | .number value, state => (value, state)
  | .text id, state => (Float.ofNat id, state)
  | .variable cell, state => (state.1.get cell, state)
  | .item base index, state =>
    let (first, state) := eval host base state
    let (second, state) := eval host index state
    (state.1.readItem (first + second), state)
  | .negate operand, state =>
    let (value, state) := eval host operand state
    (-value, state)
  | .binary op left right, state =>
    let (first, state) := eval host left state
    let (second, state) := eval host right state
    (op.apply first second, state)
  | .call function arguments, state =>
    let (values, state) := evalArgs host arguments state
    let (result, state) := host.call function values state
    (result.getD 0.0, state)
  | .assign cell value, state =>
    let (value, store, outer) := eval host value state
    (value, store.set cell value, outer)
  | .assignItem base index value, state =>
    let (first, state) := eval host base state
    let (second, state) := eval host index state
    let (value, store, outer) := eval host value state
    (value, store.writeItem (first + second) value, outer)
termination_by structural expression => expression

/-- Evaluate arguments, keeping the cells of plain variables. -/
def evalArgs (host : CodeHost σ) : List (Expr Cell Nat) → Store × σ →
    List Arg × Store × σ
  | [], state => ([], state)
  | .variable cell :: others, state =>
    let first : Arg := ⟨state.1.get cell, some cell⟩
    let (values, state) := evalArgs host others state
    (first :: values, state)
  | argument :: others, state =>
    let (value, state) := eval host argument state
    let (values, state) := evalArgs host others state
    (⟨value, none⟩ :: values, state)
termination_by structural arguments => arguments

end

/-- Run the statements of a program. -/
def run (host : CodeHost σ) (program : Program) (state : Store × σ) : Store × σ :=
  program.foldl (fun state statement => (eval host statement state).2) state

end Code
end EffectHost

import EffectHost.Proofs.Code.Agreement
import EffectHost.Proofs.Code.Linking

/-!
# The same code with other cells

Two hosts run the same code, but in the second run every cell goes by another name, and the
hosts may keep states of different kinds.  If the stores agree on the cells of the code and
the functions of one host do what those of the other do, the two runs compute the same values
and end in states that are again related.
-/

namespace EffectHost

open Code

namespace Code

mutual

theorem Expr.relabel_id {ν τ : Type} : ∀ expression : Expr ν τ,
    expression.relabel id id = expression
  | .number _ | .text _ | .variable _ => rfl
  | .item base index => by
      rw [Expr.relabel, Expr.relabel_id base, Expr.relabel_id index]
  | .negate operand => by rw [Expr.relabel, Expr.relabel_id operand]
  | .binary _ left right => by
      rw [Expr.relabel, Expr.relabel_id left, Expr.relabel_id right]
  | .call _ arguments => by rw [Expr.relabel, relabelAll_id arguments]
  | .assign _ value => by rw [Expr.relabel, Expr.relabel_id value, id]
  | .assignItem base index value => by
      rw [Expr.relabel, Expr.relabel_id base, Expr.relabel_id index, Expr.relabel_id value]

theorem relabelAll_id {ν τ : Type} : ∀ expressions : List (Expr ν τ),
    relabelAll id id expressions = expressions
  | [] => rfl
  | first :: others => by rw [relabelAll, Expr.relabel_id first, relabelAll_id others]

end

end Code

/-- The argument with another name for its cell. -/
def Arg.rename (rename : Cell → Cell) (arg : Arg) : Arg :=
  { arg with cell? := arg.cell?.map rename }

/-- The program with other names for its cells. -/
def Program.rename (rename : Cell → Cell) (program : Program) : Program :=
  relabelAll rename id program

/-- Where the first host acts on cells, the second does the same to cells of other names. -/
structure CodeHost.Mirrors {σ τ : Type} (first : CodeHost σ) (second : CodeHost τ)
    (visible : Cell → Prop) (rename : Cell → Cell)
    (related : Store × σ → Store × τ → Prop) : Prop where
  get : ∀ {one : Store × σ} {two : Store × τ} {cell : Cell}, related one two → visible cell →
    one.1.get cell = two.1.get (rename cell)
  readItem : ∀ {one : Store × σ} {two : Store × τ} (position : Float), related one two →
    one.1.readItem position = two.1.readItem position
  set : ∀ {one : Store × σ} {two : Store × τ} {cell : Cell} (value : Float), related one two →
    visible cell → related (one.1.set cell value, one.2) (two.1.set (rename cell) value, two.2)
  writeItem : ∀ {one : Store × σ} {two : Store × τ} (position value : Float), related one two →
    related (one.1.writeItem position value, one.2) (two.1.writeItem position value, two.2)
  call : ∀ {one : Store × σ} {two : Store × τ} (name : String) {args : List Arg},
    related one two → ArgsWithin visible args →
      (first.call name args one).1 = (second.call name (args.map (Arg.rename rename)) two).1 ∧
        related (first.call name args one).2
          (second.call name (args.map (Arg.rename rename)) two).2

namespace Code

variable {σ τ : Type} {first : CodeHost σ} {second : CodeHost τ} {visible : Cell → Prop}
  {rename : Cell → Cell} {related : Store × σ → Store × τ → Prop}

theorem cell?_relabel (expression : Expr Cell Nat) :
    (expression.relabel rename id).cell? = expression.cell?.map rename := by
  cases expression <;> rfl

mutual

theorem eval_mirrors (mirrors : first.Mirrors second visible rename related) :
    ∀ (expression : Expr Cell Nat) (one : Store × σ) (two : Store × τ),
      (∀ cell ∈ expression.variables, visible cell) → related one two →
        (eval first expression one).1 = (eval second (expression.relabel rename id) two).1 ∧
          related (eval first expression one).2
            (eval second (expression.relabel rename id) two).2
  | .number _, _, _, _, before => ⟨rfl, before⟩
  | .text _, _, _, _, before => ⟨rfl, before⟩
  | .variable cell, _, _, within, before =>
      ⟨mirrors.get before (within cell List.mem_cons_self), before⟩
  | .item base index, one, two, within, before => by
      rw [Expr.variables, List.forall_mem_append] at within
      have left := eval_mirrors mirrors base one two within.1 before
      have right := eval_mirrors mirrors index _ _ within.2 left.2
      simp only [Expr.relabel, eval, left.1, right.1]
      exact ⟨mirrors.readItem _ right.2, right.2⟩
  | .negate operand, one, two, within, before => by
      have inner := eval_mirrors mirrors operand one two within before
      simp only [Expr.relabel, eval, inner.1]
      exact ⟨trivial, inner.2⟩
  | .binary op left right, one, two, within, before => by
      rw [Expr.variables, List.forall_mem_append] at within
      have earlier := eval_mirrors mirrors left one two within.1 before
      have later := eval_mirrors mirrors right _ _ within.2 earlier.2
      simp only [Expr.relabel, eval, earlier.1, later.1]
      exact ⟨trivial, later.2⟩
  | .call function arguments, one, two, within, before => by
      rcases evalArgs_mirrors mirrors arguments one two within before with
        ⟨values, states, named⟩
      have called := mirrors.call function states named
      simp only [Expr.relabel, eval, values] at called ⊢
      exact ⟨congrArg (Option.getD · 0.0) called.1, called.2⟩
  | .assign cell value, one, two, within, before => by
      rw [Expr.variables, List.forall_mem_cons] at within
      have inner := eval_mirrors mirrors value one two within.2 before
      simp only [Expr.relabel, eval, inner.1]
      exact ⟨trivial, mirrors.set _ inner.2 within.1⟩
  | .assignItem base index value, one, two, within, before => by
      rw [Expr.variables, List.forall_mem_append, List.forall_mem_append] at within
      have left := eval_mirrors mirrors base one two within.1.1 before
      have right := eval_mirrors mirrors index _ _ within.1.2 left.2
      have inner := eval_mirrors mirrors value _ _ within.2 right.2
      simp only [Expr.relabel, eval, left.1, right.1, inner.1]
      exact ⟨trivial, mirrors.writeItem _ _ inner.2⟩

theorem evalArgs_mirrors (mirrors : first.Mirrors second visible rename related) :
    ∀ (arguments : List (Expr Cell Nat)) (one : Store × σ) (two : Store × τ),
      (∀ cell ∈ variablesOfAll arguments, visible cell) → related one two →
        (evalArgs second (relabelAll rename id arguments) two).1 =
            (evalArgs first arguments one).1.map (Arg.rename rename) ∧
          related (evalArgs first arguments one).2
            (evalArgs second (relabelAll rename id arguments) two).2 ∧
          ArgsWithin visible (evalArgs first arguments one).1
  | [], _, _, _, before => ⟨rfl, before, List.forall_mem_nil _⟩
  | argument :: others, one, two, within, before => by
      rw [variablesOfAll, List.forall_mem_append] at within
      have head := eval_mirrors mirrors argument one two within.1 before
      have tail := evalArgs_mirrors mirrors others _ _ within.2 head.2
      rw [relabelAll, evalArgs_cons, evalArgs_cons, cell?_relabel]
      refine ⟨?_, tail.2.1, List.forall_mem_cons.mpr ⟨?_, tail.2.2⟩⟩
      · simp only [tail.1, head.1, List.map_cons, Arg.rename]
      · intro cell plain
        exact within.1 cell (Expr.mem_variables_of_cell? plain)

end

/-- A program and its mirror image leave related states. -/
theorem run_mirrors (mirrors : first.Mirrors second visible rename related) {program : Program}
    (within : program.Within visible) {one : Store × σ} {two : Store × τ}
    (before : related one two) :
    related (run first program one) (run second (program.rename rename) two) := by
  induction program generalizing one two with
  | nil => exact before
  | cons statement others ih =>
      rw [Program.Within, variablesOfAll, List.forall_mem_append] at within
      exact ih within.2 (eval_mirrors mirrors statement one two within.1 before).2

end Code
end EffectHost

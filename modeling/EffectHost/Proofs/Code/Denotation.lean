import EffectHost.Proofs.Code.Cells
import EffectHost.Proofs.Code.Registered

/-!
# One cell for each name

While code is linked, every name is replaced by the cell that it denotes in the end, in whichever
section it stands.  A name that neither the caller nor the machine knows denotes a new cell, which
holds zero.
-/

namespace EffectHost

open Code

/-- The program is what statements become when each name is replaced by the cell that it denotes.
Texts are left out: every one of them has a number of its own. -/
def Code.Resolves (denotes? : String → Option Cell) (statements : List SourceExpr)
    (program : Program) : Prop :=
  relabelAll some (fun _ => ()) program = relabelAll denotes? (fun _ => ()) statements

namespace Code

mutual

/-- Replacing variables replaces what they are. -/
theorem Expr.variables_relabel {ν τ ν' τ' : Type} (variable' : ν → ν') (text' : τ → τ') :
    ∀ expression : Expr ν τ,
      (expression.relabel variable' text').variables = expression.variables.map variable'
  | .number _ | .text _ | .variable _ => rfl
  | .item base index => by
      rw [Expr.relabel, Expr.variables, Expr.variables, List.map_append,
        Expr.variables_relabel variable' text' base, Expr.variables_relabel variable' text' index]
  | .negate operand => Expr.variables_relabel variable' text' operand
  | .binary _ left right => by
      rw [Expr.relabel, Expr.variables, Expr.variables, List.map_append,
        Expr.variables_relabel variable' text' left, Expr.variables_relabel variable' text' right]
  | .call _ arguments => variablesOfAll_relabelAll variable' text' arguments
  | .assign _ value => congrArg (_ :: ·) (Expr.variables_relabel variable' text' value)
  | .assignItem base index value => by
      rw [Expr.relabel, Expr.variables, Expr.variables, List.map_append, List.map_append,
        Expr.variables_relabel variable' text' base, Expr.variables_relabel variable' text' index,
        Expr.variables_relabel variable' text' value]

theorem variablesOfAll_relabelAll {ν τ ν' τ' : Type} (variable' : ν → ν') (text' : τ → τ') :
    ∀ expressions : List (Expr ν τ),
      variablesOfAll (relabelAll variable' text' expressions) =
        (variablesOfAll expressions).map variable'
  | [] => rfl
  | first :: others => by
      rw [relabelAll, variablesOfAll, variablesOfAll, List.map_append,
        Expr.variables_relabel variable' text' first,
        variablesOfAll_relabelAll variable' text' others]

end

/-- Each name in the statements denotes a cell of the program. -/
theorem Resolves.exists_cell {denotes? : String → Option Cell} {statements : List SourceExpr}
    {program : Program} (resolved : Resolves denotes? statements program) {name : String}
    (mentioned : name ∈ variablesOfAll statements) :
    ∃ cell ∈ variablesOfAll program, denotes? name = some cell := by
  have same := congrArg variablesOfAll resolved
  rw [variablesOfAll_relabelAll, variablesOfAll_relabelAll] at same
  have listed : denotes? name ∈ (variablesOfAll program).map some :=
    same ▸ List.mem_map_of_mem mentioned
  rcases List.mem_map.mp listed with ⟨cell, own, denoted⟩
  exact ⟨cell, own, denoted.symm⟩

end Code

namespace Machine

/-- The cell that a name denotes, if it is known. -/
def denotes? (machine : Machine) (resolve : String → Option Cell) (name : String) : Option Cell :=
  (resolve name).or machine.code.names[name]?

variable {resolve : String → Option Cell} {last : Machine}

/-! ## Linked code -/

/-- A name is linked to what it denotes from then on. -/
theorem denotes?_of_link {machine : Machine} {name : String}
    (grows : Grows (machine.link resolve name).2 last) :
    last.denotes? resolve name = some (machine.link resolve name).1 := by
  rcases link_denoted grows with ⟨own, cell, known⟩
  rw [own, denoted, known]
  rwa [Option.orElse_eq_orElse, Option.orElse_eq_or] at known

mutual

/-- In linked code each name is replaced by the cell that it denotes in the end. -/
theorem relabel_linkExpr : ∀ (expression : SourceExpr) {machine : Machine},
    Grows (linkExpr resolve expression machine).2 last →
      (linkExpr resolve expression machine).1.relabel some (fun _ => ()) =
        expression.relabel (last.denotes? resolve) (fun _ => ())
  | .number _, _, _ | .text _, _, _ => rfl
  | .variable _, _, grows => congrArg Expr.variable (denotes?_of_link grows).symm
  | .item base index, machine, grows =>
      congrArg₂ Expr.item
        (relabel_linkExpr base ((grows_linkExpr resolve index _).trans grows))
        (relabel_linkExpr index grows)
  | .negate operand, _, grows => congrArg Expr.negate (relabel_linkExpr operand grows)
  | .binary op left right, machine, grows =>
      congrArg₂ (Expr.binary op)
        (relabel_linkExpr left ((grows_linkExpr resolve right _).trans grows))
        (relabel_linkExpr right grows)
  | .call function arguments, _, grows =>
      congrArg (Expr.call function) (relabelAll_linkAll arguments grows)
  | .assign name value, machine, grows =>
      congrArg₂ Expr.assign
        (denotes?_of_link ((grows_linkExpr resolve value _).trans grows)).symm
        (relabel_linkExpr value grows)
  | .assignItem base index value, machine, grows => by
      have later := (grows_linkExpr resolve value _).trans grows
      rw [linkExpr, Expr.relabel, Expr.relabel, relabel_linkExpr value grows,
        relabel_linkExpr index later,
        relabel_linkExpr base ((grows_linkExpr resolve index _).trans later)]

theorem relabelAll_linkAll : ∀ (expressions : List SourceExpr) {machine : Machine},
    Grows (linkAll resolve expressions machine).2 last →
      relabelAll some (fun _ => ()) (linkAll resolve expressions machine).1 =
        relabelAll (last.denotes? resolve) (fun _ => ()) expressions
  | [], _, _ => rfl
  | first :: others, _, grows =>
      congrArg₂ List.cons
        (relabel_linkExpr first ((grows_linkAll resolve others _).trans grows))
        (relabelAll_linkAll others grows)

end

/-- Code that compiles becomes a program in which its names are cells. -/
theorem resolves_compile {machine next : Machine} {source : String} {id : Nat}
    (compiled : machine.compile source resolve = (.ok id, next)) (grows : Grows next last) :
    ∃ statements program, statements? source = some statements ∧
      next.code.programs[id]? = some program ∧
      Resolves (last.denotes? resolve) statements program := by
  rcases compile_eq_ok compiled with ⟨statements, read, made⟩
  cases made
  have added (linked : Machine) (program : Program) : Grows linked (linked.addProgram program).2 :=
    grows_keptByCompiling.of_sameNames ⟨rfl, rfl, rfl⟩
  exact ⟨statements, _, read, Std.HashMap.getElem?_insert_self,
    relabelAll_linkAll statements ((added _ _).trans grows)⟩

/-! ## New names -/

/-- Old cells keep their values, and what is known by a name was known before or is a new cell that
holds zero. -/
structure NamesFreshly (before after : Machine) : Prop where
  cells : before.cellCount ≤ after.cellCount
  values : ∀ cell : Cell, cell.index < before.cellCount →
    after.store.get cell = before.store.get cell
  names : ∀ (name : String) (cell : Cell), after.code.names[name]? = some cell →
    before.code.names[name]? = some cell ∨
      before.cellCount ≤ cell.index ∧ cell.index < after.cellCount ∧ after.store.get cell = 0.0

namespace NamesFreshly

theorem refl (machine : Machine) : NamesFreshly machine machine :=
  ⟨Nat.le_refl _, fun _ _ => rfl, fun _ _ known => .inl known⟩

theorem trans {first second third : Machine} (left : NamesFreshly first second)
    (right : NamesFreshly second third) : NamesFreshly first third where
  cells := Nat.le_trans left.cells right.cells
  values cell inside :=
    (right.values cell (Nat.lt_of_lt_of_le inside left.cells)).trans (left.values cell inside)
  names name cell known := by
    rcases right.names name cell known with old | ⟨above, below, zero⟩
    · rcases left.names name cell old with older | ⟨above, below, zero⟩
      · exact .inl older
      · exact .inr ⟨above, Nat.lt_of_lt_of_le below right.cells,
          (right.values cell below).trans zero⟩
    · exact .inr ⟨Nat.le_trans left.cells above, below, zero⟩

theorem of_sameNames {before after : Machine} (same : SameNames before after) :
    NamesFreshly before after where
  cells := Nat.le_of_eq (congrArg Array.size same.cells).symm
  values cell _ := by rw [Store.get, Store.get, same.cells]
  names _ _ known := .inl (same.names ▸ known)

end NamesFreshly

/-- A new name has a new cell. -/
theorem namesFreshly_addName (machine : Machine) (name : String) :
    NamesFreshly machine { store := machine.store.addCell.2
                           code := { machine.code with
                             names := machine.code.names.insert name machine.store.addCell.1 } } := by
  have size : (machine.store.cells.push 0.0).size = machine.store.cells.size + 1 :=
    Array.size_push _
  refine ⟨Nat.le_of_lt (Nat.lt_of_lt_of_eq (Nat.lt_succ_self _) size.symm),
    fun cell inside => ?_, fun other cell known => ?_⟩
  · show (machine.store.cells.push 0.0).getD cell.index 0.0 = machine.store.cells.getD _ 0.0
    rw [Array.getD_eq_getD_getElem?, Array.getD_eq_getD_getElem?, Array.getElem?_push]
    exact congrArg (Option.getD · 0.0) (if_neg (Nat.ne_of_lt inside))
  · dsimp only at known
    rw [Std.HashMap.getElem?_insert] at known
    split at known
    · cases known
      refine .inr ⟨Nat.le_refl _, Nat.lt_of_lt_of_eq (Nat.lt_succ_self _) size.symm, ?_⟩
      show (machine.store.cells.push 0.0).getD machine.store.cells.size 0.0 = 0.0
      rw [Array.getD_eq_getD_getElem?, Array.getElem?_push_size, Option.getD_some]
    · exact .inl known

theorem namesFreshly_cellOf (machine : Machine) (name : String) :
    NamesFreshly machine (machine.cellOf name).2 := by
  rw [cellOf]
  cases machine.code.names[name]? with
  | some cell => exact .refl machine
  | none => exact namesFreshly_addName machine name

/-- Compiling gives new cells to new names, whether it succeeds or not. -/
theorem namesFreshly_keptByCompiling : KeptByCompiling NamesFreshly where
  trans := .trans
  cellOf := namesFreshly_cellOf
  of_sameNames := .of_sameNames

end Machine
end EffectHost

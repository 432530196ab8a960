import EffectHost.Proofs.Code.Linking
import EffectHost.Proofs.Code.Twins

/-!
# The names of the host

The host registers its names before any code is there.  Compiling keeps all names, and
resetting keeps the registered ones, so that a machine that has just been reset knows the
same names as one in which nothing was ever compiled.
-/

namespace EffectHost
namespace Machine

/-- What was known by name still is, and the host has the same names. -/
structure KeepsNames (before after : Machine) : Prop where
  names : ∀ (name : String) (cell : Cell), before.code.names[name]? = some cell →
    after.code.names[name]? = some cell
  registered : after.code.registered = before.code.registered

theorem KeepsNames.trans {first second third : Machine} (left : KeepsNames first second)
    (right : KeepsNames second third) : KeepsNames first third :=
  ⟨fun name cell known => right.names name cell (left.names name cell known),
    right.registered.trans left.registered⟩

/-- Compiling keeps all names. -/
theorem keepsNames_keptByCompiling : KeptByCompiling KeepsNames where
  trans := .trans
  cellOf machine name := by
    refine ⟨(grows_cellOf machine name).names, ?_⟩
    rw [cellOf]
    split <;> rfl
  of_sameNames same := ⟨fun _ _ known => same.names ▸ known, same.registered⟩

/-! ## Registered names -/

/-- The host has registered its names, and they denote its cells. -/
structure Registers (machine : Machine) : Prop where
  names : ∀ (name : String) (cell : Cell), hosted.code.names[name]? = some cell →
    machine.code.names[name]? = some cell
  registered : machine.code.registered = hosted.code.registered

theorem Registers.of_keepsNames {before after : Machine} (registers : before.Registers)
    (keeps : KeepsNames before after) : after.Registers :=
  ⟨fun name cell known => keeps.names name cell (registers.names name cell known),
    keeps.registered.trans registers.registered⟩

theorem registers_hosted : hosted.Registers :=
  ⟨fun _ _ known => known, rfl⟩

/-- A name of the host is registered and denotes a cell of the host. -/
theorem names_hosted (name : String) :
    (hosted.code.registered.contains name = (hosted.code.names[name]?).isSome) ∧
      ∀ cell, hosted.code.names[name]? = some cell →
        cell.index < HostVariable.all.length := by
  -- Both tables grow together, one variable after another.
  have together : ∀ (told : List HostVariable) (names : Std.HashMap String Cell)
      (registered : Std.HashSet String),
      (registered.contains name = (names[name]?).isSome ∧
        ∀ cell, names[name]? = some cell → cell.index < HostVariable.all.length) →
      let after := told.foldl (fun names v => names.insert v.name v.cell) names
      (told.foldl (fun names v => names.insert v.name) registered).contains name =
          (after[name]?).isSome ∧
        ∀ cell, after[name]? = some cell → cell.index < HostVariable.all.length := by
    intro told
    induction told with
    | nil => exact fun _ _ before => before
    | cons first others ih =>
        rintro names registered ⟨same, hostedCells⟩
        apply ih
        rw [Std.HashMap.getElem?_insert, Std.HashSet.contains_insert]
        by_cases own : first.name = name
        · rw [beq_iff_eq.mpr own, if_pos rfl]
          refine ⟨rfl, ?_⟩
          rintro cell ⟨⟩
          exact HostVariable.index_lt_length first
        · rw [beq_eq_false_iff_ne.mpr own, if_neg Bool.false_ne_true]
          exact ⟨same, hostedCells⟩
  exact together HostVariable.all ∅ ∅ ⟨by simp, fun cell found => by simp at found⟩

/-- A machine that has been reset knows the names of the host and no others. -/
theorem names_reset {machine : Machine} (registers : machine.Registers) (name : String) :
    machine.reset.code.names[name]? = hosted.code.names[name]? := by
  have known := (names_hosted name).1
  change (Std.HashMap.filter _ machine.code.names)[name]? = _
  rw [Std.HashMap.getElem?_filter']
  simp only [registers.registered, known]
  cases found : hosted.code.names[name]? with
  | none => cases machine.code.names[name]? <;> rfl
  | some cell =>
      rw [registers.names name cell found]
      rfl

theorem registers_reset {machine : Machine} (registers : machine.Registers) :
    machine.reset.Registers := by
  refine ⟨?_, registers.registered⟩
  intro name cell known
  rw [names_reset registers]
  exact known

/-- Machines that have been reset know names up to any shift of cells. -/
theorem twins_code_reset (shift : CellShift) {one two : Machine} (registers : one.Registers)
    (registersToo : two.Registers) : Codebase.Twins shift one.reset.code two.reset.code := by
  refine ⟨?_, ?_, registers.registered.trans registersToo.registered.symm⟩
  · intro name
    rw [names_reset registers, names_reset registersToo]
    cases found : hosted.code.names[name]? with
    | none => rfl
    | some cell =>
        have front := (names_hosted name).2 cell found
        exact congrArg some (CellShift.move_of_hosted front).symm
  · intro name cell found
    rw [names_reset registers] at found
    exact .inl ((names_hosted name).2 cell found)

end Machine

namespace CompiledSections

open Machine

/-- Compiling a script leaves the names of the host registered. -/
theorem registers_compile (resolve : String → Option Cell) (script : LoadedScript)
    (options : CompileOptions) {machine : Machine} (registers : machine.Registers) :
    (compile resolve script options machine).2.Registers :=
  registers.of_keepsNames (keepsNames_keptByCompiling.compileScript resolve script options machine)

end CompiledSections
end EffectHost

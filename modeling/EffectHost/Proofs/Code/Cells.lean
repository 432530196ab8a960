import EffectHost.Proofs.Code.Compiling

/-!
# Cells are never given back

Compiling makes cells for the names that it does not know and leaves those that are there
alone, whether it succeeds or not.  So the cells of the host remain in every machine that
descends from one that has them.
-/

namespace EffectHost
namespace Machine

open Code

/-- Number of cells. -/
def cellCount (machine : Machine) : Nat :=
  machine.store.cells.size

theorem cellCount_keptByCompiling :
    KeptByCompiling fun before after => before.cellCount ≤ after.cellCount where
  trans := Nat.le_trans
  cellOf machine name := by
    rw [cellOf]
    split
    · exact Nat.le_refl _
    · simp [cellCount, Store.addCell]
  of_sameNames same := Nat.le_of_eq (congrArg Array.size same.cells).symm

end Machine

namespace CompiledSections

open Machine

/-- No cell is lost in compiling a script. -/
theorem cellCount_le_compile (resolve : String → Option Cell) (script : LoadedScript)
    (options : CompileOptions) (machine : Machine) :
    machine.cellCount ≤ (compile resolve script options machine).2.cellCount :=
  cellCount_keptByCompiling.compileScript resolve script options machine

end CompiledSections
end EffectHost

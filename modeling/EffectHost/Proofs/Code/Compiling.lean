import EffectHost.Effect.Sections
import EffectHost.Proofs.Code.Programs

/-!
# What compiling keeps

Compiling makes names known, and it makes cells for them.  Whatever else it does to a machine leaves
names and cells alone.  So what holds whenever one name is made known holds of a script that is
compiled, whether it succeeds or not.
-/

namespace EffectHost

open Code

namespace Machine

/-- The machines have the same names and cells. -/
structure SameNames (before after : Machine) : Prop where
  cells : after.store.cells = before.store.cells
  names : after.code.names = before.code.names
  registered : after.code.registered = before.code.registered

/-- What holds between a machine and what it becomes whenever a name is made known to it, and
whenever its names and cells stay the same. -/
structure KeptByCompiling (kept : Machine → Machine → Prop) : Prop where
  trans : ∀ {first second third}, kept first second → kept second third → kept first third
  cellOf : ∀ machine name, kept machine (machine.cellOf name).2
  of_sameNames : ∀ {before after}, SameNames before after → kept before after

namespace KeptByCompiling

variable {kept : Machine → Machine → Prop} (keeps : KeptByCompiling kept)

include keeps

theorem refl (machine : Machine) : kept machine machine :=
  keeps.of_sameNames ⟨rfl, rfl, rfl⟩

theorem keptByLinking (resolve : String → Option Cell) : KeptByLinking resolve kept where
  refl := keeps.refl
  trans := keeps.trans
  link machine name := by
    rw [link]
    split
    · exact keeps.refl machine
    · exact keeps.cellOf machine name
  addLiteral _ _ := keeps.of_sameNames ⟨rfl, rfl, rfl⟩

theorem compile (machine : Machine) (source : String) (resolve : String → Option Cell) :
    kept machine (machine.compile source resolve).2 := by
  rw [Machine.compile]
  split
  · exact keeps.refl machine
  · split
    · next statements _ =>
        have linked := (keeps.keptByLinking resolve).linkAll statements machine
        exact keeps.trans linked (keeps.of_sameNames ⟨rfl, rfl, rfl⟩)
    · exact (keeps.keptByLinking resolve).noteTokens _ machine

theorem freeAll (machine : Machine) (ids : List Nat) : kept machine (machine.freeAll ids) := by
  induction ids generalizing machine with
  | nil => exact keeps.refl machine
  | cons id others ih =>
      have first : kept machine (machine.free id) := keeps.of_sameNames ⟨rfl, rfl, rfl⟩
      exact keeps.trans first (ih _)

theorem compileAll (resolve : String → Option Cell) (parts : List Section)
    (done : CompiledSections) (machine : Machine) :
    kept machine (CompiledSections.compileAll resolve parts done machine).2 := by
  induction parts generalizing done machine with
  | nil => exact keeps.refl machine
  | cons part others ih =>
      have first := keeps.compile machine part.text resolve
      rw [CompiledSections.compileAll]
      split
      · next compiled =>
          rw [compiled] at first
          exact keeps.trans first (ih _ _)
      · next failed =>
          rw [failed] at first
          exact keeps.trans first (keeps.freeAll _ _)

theorem compileScript (resolve : String → Option Cell) (script : LoadedScript)
    (options : CompileOptions) (machine : Machine) :
    kept machine (CompiledSections.compile resolve script options machine).2 := by
  have prepared : kept machine (CompiledSections.prepare script machine) :=
    keeps.of_sameNames ⟨rfl, rfl, rfl⟩
  exact keeps.trans prepared (keeps.compileAll resolve _ {} _)

end KeptByCompiling
end Machine
end EffectHost

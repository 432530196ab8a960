import EffectHost.Proofs.Effect.Grounded

/-!
# Where programs come from

Of every kind but init the script has one section that counts, and wherever an effect has
been led, its program of that kind is what linking the statements of this section gives.
-/

namespace EffectHost

open Code

/-- The program is what some machine makes of the code of the section. -/
def Section.LinksTo (part : Section) (resolve : String → Option Cell) (program : Program) :
    Prop :=
  ∃ (statements : List SourceExpr) (machine : Machine),
    Code.statements? part.text = some statements ∧
      program = (Machine.linkAll resolve statements machine).1

namespace Effect

variable {σ : Type} {painter : Painter σ} {config : Config}

/-- Programs are linked code of the script's sections. -/
def Linked (effect : Effect σ) : Prop :=
  ∀ kind, kind ≠ .init → kind ≠ .gfx → ∀ program, effect.program? kind = some program →
    ∃ script part, effect.rig.script? = some script ∧ script.section? kind = some part ∧
      part.LinksTo script.info.aliases.cell? program

theorem linked_of_not_isCompiled {effect : Effect σ} (absent : effect.rig.sections? = none) :
    effect.Linked := by
  intro kind _ notDrawing program found
  rw [program?, programId?, if_neg notDrawing, absent] at found
  cases found

theorem Linked.of_keepsCode {before after : Effect σ} (linked : before.Linked)
    (keeps : before.rig.KeepsCode after.rig) : after.Linked := by
  intro kind notInit notDrawing program found
  rw [program?, programId?_of_keepsCode keeps, programOf_of_keepsCode keeps] at found
  rw [keeps.script]
  exact linked kind notInit notDrawing program found

theorem linked_compile {effect : Effect σ} (grounded : effect.Grounded config)
    (options : CompileOptions) : (effect.compile options).effect.Linked := by
  have emptied := grounded_unloadCode grounded
  rw [compile]
  split
  · next script info known informed =>
      split
      · next sections machine compiled =>
          let installed := (effect.unloadCode.withMachine machine).installCode sections
          rcases CompiledSections.compileAll_ok compiled with ⟨ids, run, programs⟩
          intro kind notInit notDrawing program found
          rw [program?, programId?_installCode _ _ notDrawing, Option.map_eq_some_iff] at found
          rcases found with ⟨id, single, own⟩
          have entry : (kind, id) ∈ sections.programs :=
            CompiledSections.mem_programs_of_mem_ofKind (List.mem_of_head? single)
          rw [programs] at entry
          rcases List.getElem?_of_mem entry with ⟨position, there⟩
          rw [List.nil_append, List.getElem?_zip_eq_some, List.getElem?_map,
            Option.map_eq_some_iff] at there
          rcases there with ⟨⟨part, place, rfl⟩, number⟩
          rcases run.program_eq position part id place number with
            ⟨before, next, linked, first, added, last⟩
          rcases Machine.compile_eq_ok first with ⟨statements, read, made⟩
          have stored : next.code.programs[id]? =
              some (Machine.linkAll info.aliases.cell? statements before).1 := by
            cases made
            exact Std.HashMap.getElem?_insert_self
          have same : program = linked := by
            change machine.code.programs.getD id [] = program at own
            rw [← own, Std.HashMap.getD_eq_getD_getElem?, last, Option.getD_some]
          have told : info = script.info := by
            have tells := emptied.informed
            rw [informed, known] at tells
            exact Option.some.inj tells
          have section? := LoadedScript.section?_of_mem_sectionsToCompile
            (List.mem_of_getElem? place) notInit
          refine ⟨script, part, known, section?, statements, before, read, ?_⟩
          rw [same, ← told]
          exact Option.some.inj (added.symm.trans stored)
      · exact linked_of_not_isCompiled rfl
  · exact linked_of_not_isCompiled rfl

/-- Wherever an effect has been led, its programs are linked code. -/
theorem Reached.linked {effect : Effect σ} (reached : Reached painter config effect) :
    effect.Linked := by
  induction reached with
  | new disk => exact linked_of_not_isCompiled rfl
  | @load effect before path ignoreImports ih =>
      apply linked_of_not_isCompiled
      rw [Effect.load]
      split <;> rfl
  | compile before options ih => exact linked_compile before.grounded options
  | unloadCode before ih => exact linked_of_not_isCompiled rfl
  | unload before ih => exact linked_of_not_isCompiled rfl
  | @moment effect before next ih => exact ih.of_keepsCode (keepsCode_moment painter effect next)

end Effect
end EffectHost

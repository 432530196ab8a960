import EffectHost.Proofs.Effect.Kinds
import EffectHost.Proofs.Effect.TwinActions

/-!
# Scripts of twins

The code that twins hold comes from the same sections, compiled by machines that are twins.
So twins remain twins when they give their code up, and when they load and compile another
script.  With that they give the same answers to everything that a host does.
-/

namespace EffectHost

/-! ## Programs of compiled sections -/

namespace CompiledSections

/-- The programs of a kind that a machine has for the sections. -/
def programsOf (sections : CompiledSections) (machine : Machine) (kind : SectionKind) :
    List Program :=
  (sections.inMachine machine).filterMap fun entry =>
    if entry.1 = kind then some entry.2 else none

theorem programsOf_eq (sections : CompiledSections) (machine : Machine) (kind : SectionKind) :
    sections.programsOf machine kind =
      (sections.ofKind kind).map fun id => machine.code.programs.getD id [] := by
  rw [programsOf, inMachine, ofKind, List.filterMap_map, List.map_filterMap]
  apply List.filterMap_congr
  intro entry _
  simp only [Function.comp_apply]
  split <;> rfl

variable {shift : CellShift} {one two : CompiledSections} {first second : Machine}

theorem Mirrored.programsOf (mirrored : Mirrored shift one two first second)
    (kind : SectionKind) :
    two.programsOf second kind =
      (one.programsOf first kind).map (Program.rename shift.move) := by
  rw [CompiledSections.programsOf, CompiledSections.programsOf, mirrored.programs,
    List.filterMap_map, List.map_filterMap]
  apply List.filterMap_congr
  intro entry _
  simp only [Function.comp_apply]
  split <;> rfl

theorem Mirrored.within_programsOf (mirrored : Mirrored shift one two first second)
    {kind : SectionKind} : ∀ program ∈ one.programsOf first kind,
      program.Within shift.InUse := by
  intro program member
  rcases List.mem_filterMap.mp member with ⟨entry, own, same⟩
  split at same
  · cases same
    exact mirrored.within entry own
  · cases same

end CompiledSections

namespace HeldCode

/-- The code that an effect holds once it has taken sections. -/
def installed (sections : CompiledSections) (machine : Machine) : HeldCode where
  code := machine.code
  sections? := some sections.takeDrawing.2
  drawing? := sections.takeDrawing.1

theorem program?_installed (sections : CompiledSections) (machine : Machine)
    (kind : SectionKind) :
    (installed sections machine).program? kind = (sections.programsOf machine kind).head? := by
  rw [CompiledSections.programsOf_eq, List.head?_map, program?]
  by_cases drawing : kind = .gfx
  · rw [if_pos drawing, drawing]
    rfl
  · rw [if_neg drawing]
    have same := sections.ofKind_takeDrawing drawing
    exact congrArg (fun ids : List Nat => ids.head?.map (installed sections machine).programOf)
      same

theorem inits_installed (sections : CompiledSections) (machine : Machine) :
    (installed sections machine).inits = sections.programsOf machine .init := by
  rw [CompiledSections.programsOf_eq]
  exact congrArg (List.map (installed sections machine).programOf)
    (sections.ofKind_takeDrawing (by decide))

variable {shift : CellShift}

theorem twins_installed {one two : CompiledSections} {first second : Machine}
    (machines : Machine.Twins shift first second)
    (mirrored : CompiledSections.Mirrored shift one two first second) :
    Twins shift (installed one first) (installed two second) := by
  refine ⟨machines.code, rfl, ?_, ?_, ?_, ?_⟩
  · intro kind
    rw [program?_installed, program?_installed, mirrored.programsOf, List.head?_map]
  · intro kind program found
    rw [program?_installed] at found
    exact mirrored.within_programsOf program (List.mem_of_head? found)
  · rw [inits_installed, inits_installed, mirrored.programsOf]
  · rw [inits_installed]
    exact mirrored.within_programsOf

/-- Without programs there is nothing but names. -/
theorem twins_of_none {one two : Codebase} (codes : Codebase.Twins shift one two) :
    Twins shift ⟨one, none, none⟩ ⟨two, none, none⟩ := by
  have nothing (code : Codebase) (kind : SectionKind) :
      (HeldCode.mk code none none).program? kind = none := by
    rw [program?]
    split <;> rfl
  refine ⟨codes, rfl, ?_, ?_, rfl, List.forall_mem_nil _⟩
  · intro kind
    rw [nothing, nothing]
    rfl
  · intro kind program found
    rw [nothing] at found
    cases found

end HeldCode

namespace Effect
namespace Twins

variable {σ : Type} {painter : Painter σ} {shift : CellShift} {one two : Effect σ}

/-! ## Giving up and taking code -/

theorem unloadCode (twins : Twins painter shift one two) :
    Twins painter shift one.unloadCode two.unloadCode := by
  have around := twins.around
  have drawing := twins.rig.drawing
  have machines := ((twins.machine.freeAll one.rig.drawing.program?.toList
    two.rig.drawing.program?.toList).freeAll (one.rig.sections?.getD {}).ids
    (two.rig.sections?.getD {}).ids).reset
  refine ⟨machines.store, ⟨around.masks, around.files, around.input, around.output, nofun⟩,
    { twins.rig with
      held := HeldCode.twins_of_none machines.code
      drawing := ⟨drawing.reset, rfl, drawing.wantsRetina, drawing.isBusy, nofun, nofun⟩
      pending := ⟨rfl, rfl, rfl, twins.rig.pending.triggers, nofun⟩ }⟩

theorem unload (twins : Twins painter shift one two) :
    Twins painter shift one.unload two.unload := by
  have emptied := twins.unloadCode
  have around := emptied.around
  exact ⟨emptied.store, ⟨around.masks, congrArg FileTable.clear around.files, around.input,
    around.output, around.keyboard⟩, { emptied.rig with script := rfl, info := rfl }⟩

theorem install (twins : Twins painter shift one two) (script : LoadedScript) :
    Twins painter shift (one.install script) (two.install script) := by
  have around := twins.around
  have masks := congrArg (fun masks : SliderMasks =>
    { masks with visible := SliderMasks.initiallyVisible script.header }) around.masks
  exact ⟨twins_defaultSliders twins.store script.header, ⟨masks, around.files, around.input,
    around.output, around.keyboard⟩, { twins.rig with script := rfl, info := rfl }⟩

/-- The same script is loaded. -/
theorem load (twins : Twins painter shift one two) (path : String) (ignoreImports : Bool) :
    (one.load path ignoreImports).result = (two.load path ignoreImports).result ∧
      (one.load path ignoreImports).reports = (two.load path ignoreImports).reports ∧
      Twins painter shift (one.load path ignoreImports).effect
        (two.load path ignoreImports).effect := by
  have emptied := twins.unload
  rw [Effect.load, Effect.load, emptied.rig.disk, emptied.rig.config]
  split
  · exact ⟨rfl, rfl, emptied.install _⟩
  · exact ⟨rfl, rfl, emptied⟩

/-- Twins without code take a machine that has worked for them. -/
theorem withMachine (twins : Twins painter shift one two) {first second : Machine}
    (machines : Machine.Twins shift first second) (sections : one.rig.sections? = none)
    (sectionsToo : two.rig.sections? = none) (program : one.rig.drawing.program? = none)
    (programToo : two.rig.drawing.program? = none) :
    Twins painter shift (one.withMachine first) (two.withMachine second) := by
  have held : HeldCode.Twins shift (one.withMachine first).rig.heldCode
      (two.withMachine second).rig.heldCode := by
    simp only [Effect.withMachine, Rig.heldCode, sections, sectionsToo, program, programToo]
    exact HeldCode.twins_of_none machines.code
  exact ⟨machines.store, twins.around, { twins.rig with held := held }⟩

theorem installCode (twins : Twins painter shift one two) {sections others : CompiledSections}
    (mirrored : CompiledSections.Mirrored shift sections others one.machine two.machine)
    (program : one.rig.drawing.program? = none) (programToo : two.rig.drawing.program? = none) :
    Twins painter shift (one.installCode sections) (two.installCode others) := by
  have around := twins.around
  have drawing := twins.rig.drawing
  have held := HeldCode.twins_installed twins.machine mirrored
  rw [Effect.installCode, Effect.installCode, Drawing.install, Drawing.install, program,
    programToo]
  exact ⟨twins.store, ⟨around.masks, around.files, around.input, around.output, nofun⟩,
    { twins.rig with
      held := held
      drawing := ⟨drawing.reset, rfl, drawing.wantsRetina, drawing.isBusy, nofun, nofun⟩
      pending := ⟨rfl, rfl, rfl, twins.rig.pending.triggers, fun _ => .inl rfl⟩ }⟩

/-- The same code is compiled. -/
theorem compile (twins : Twins painter shift one two) (options : CompileOptions) :
    (one.compile options).result = (two.compile options).result ∧
      (one.compile options).reports = (two.compile options).reports ∧
      Twins painter shift (one.compile options).effect (two.compile options).effect := by
  have emptied := twins.unloadCode
  rw [Effect.compile, Effect.compile, emptied.rig.script, emptied.rig.info]
  split
  · next script info _ _ =>
      have alike := CompiledSections.attemptsAlike_compile info.aliases.resolvesHosted script
        options emptied.machine
      generalize CompiledSections.compile info.aliases.cell? script options
        one.unloadCode.machine = first at alike
      generalize CompiledSections.compile info.aliases.cell? script options
        two.unloadCode.machine = second at alike
      rcases first with ⟨result, machine⟩
      rcases second with ⟨resultToo, machineToo⟩
      rcases alike with ⟨machines, ⟨failure, rfl, rfl⟩ | ⟨sections, others, rfl, rfl, mirrored⟩⟩
      · exact ⟨rfl, rfl, emptied.withMachine machines rfl rfl rfl rfl⟩
      · have worked := emptied.withMachine machines rfl rfl rfl rfl
        exact ⟨rfl, rfl, worked.installCode mirrored rfl rfl⟩
  · exact ⟨rfl, rfl, emptied⟩

/-! ## All actions -/

/-- Whatever a host does, it gets the same answer. -/
theorem act (planned : painter.Planned) (twins : Twins painter shift one two)
    (action : HostAction σ) :
    one.answer painter action = two.answer painter action ∧
      Twins painter shift (one.act painter action) (two.act painter action) := by
  cases action with
  | cycle action => exact twins.actInCycle action
  | load path ignoreImports =>
      rcases twins.load path ignoreImports with ⟨result, reports, loaded⟩
      exact ⟨congrArg₂ Answer.attempt result reports, loaded⟩
  | compile options =>
      rcases twins.compile options with ⟨result, reports, compiled⟩
      exact ⟨congrArg₂ Answer.attempt result reports, compiled⟩
  | unloadCode => exact ⟨rfl, twins.unloadCode⟩
  | unload => exact ⟨rfl, twins.unload⟩
  | saveState =>
      rcases twins.saveState with ⟨saved, done⟩
      exact ⟨congrArg Answer.state saved, done⟩
  | loadState state =>
      rcases twins.loadState state with ⟨loaded, done⟩
      exact ⟨congrArg Answer.flag loaded, done⟩
  | attach surface => exact ⟨rfl, twins.attach surface⟩
  | setKey key pressed => exact ⟨rfl, twins.setKey key pressed⟩
  | setMouse modifiers x y buttons wheel sideWheel =>
      exact ⟨rfl, twins.setMouse modifiers x y buttons wheel sideWheel⟩
  | draw =>
      rcases twins.draw planned with ⟨dirty, done⟩
      exact ⟨congrArg Answer.flag dirty, done⟩
  | changeDisk disk =>
      exact ⟨rfl, twins.store, twins.around, { twins.rig with disk := rfl }⟩

/-- Whatever a host does in a row, it gets the same answers. -/
theorem after (planned : painter.Planned) (twins : Twins painter shift one two)
    (actions : List (HostAction σ)) :
    one.answers painter actions = two.answers painter actions ∧
      Twins painter shift (one.after painter actions) (two.after painter actions) := by
  induction actions generalizing one two with
  | nil => exact ⟨rfl, twins⟩
  | cons action others ih =>
      rcases twins.act planned action with ⟨answer, done⟩
      rcases ih done with ⟨answers, last⟩
      exact ⟨congrArg₂ List.cons answer answers, last⟩

/-- Twins look the same to a host. -/
theorem view (twins : Twins painter shift one two) : one.view = two.view := by
  have store := twins.store
  have draws := congrArg Option.isSome (twins.program? .gfx)
  rw [Option.isSome_map] at draws
  simp only [Effect.view, latency, latencyChannels, delaysMidi, store.read, twins.around.masks,
    twins.rig.script, twins.isCompiled, draws, twins.rig.drawing.wantsRetina]

end Twins
end Effect
end EffectHost

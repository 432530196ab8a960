import EffectHost.Proofs.Effect.Actions
import EffectHost.Proofs.Effect.Kinds
import EffectHost.Proofs.Effect.Sections

/-!
# Programs along the life of an effect

The programs of the machine are those that the effect holds: the ones of the compiled
sections and the one that the drawing side has.  Unloading gives up all of them, so that
compiling starts from a machine without programs and ends either with exactly the new ones
or with none.  Everything else that a host can do leaves both sides alone.
-/

namespace EffectHost
namespace Effect

open Rig

variable {σ : Type}

/-- The numbers of the programs that an effect holds. -/
def heldPrograms (effect : Effect σ) : List Nat :=
  effect.initIds ++
    ([.slider, .block, .sample, .serialize].flatMap fun kind =>
      (effect.programId? kind).toList) ++
    effect.rig.drawing.program?.toList

/-- The machine has the programs that the effect holds, and code is only there for a known
script. -/
structure Sound (effect : Effect σ) : Prop where
  live : ∀ id, id ∈ effect.rig.code.programs ↔ id ∈ effect.heldPrograms
  once : effect.heldPrograms.Nodup
  known : effect.isCompiled = true → effect.isLoaded = true ∧ effect.hasInfo = true
  work : effect.rig.WorkFits
  idle : effect.rig.drawing.isBusy = false

/-- There is no code, neither in the machine nor in the effect. -/
structure Cleared (effect : Effect σ) : Prop where
  sections : effect.rig.sections? = none
  drawingProgram : effect.rig.drawing.program? = none
  programs : ∀ id, id ∉ effect.rig.code.programs
  fresh : effect.rig.pending.isFresh = false
  init : effect.rig.pending.init = false
  idle : effect.rig.drawing.isBusy = false

theorem not_isCompiled_of_cleared {effect : Effect σ} (cleared : effect.Cleared) :
    effect.isCompiled = false := by
  rw [isCompiled, cleared.sections]
  rfl

theorem sound_of_cleared {effect : Effect σ} (cleared : effect.Cleared) : effect.Sound := by
  have nothing : effect.heldPrograms = [] := by
    simp [heldPrograms, initIds, programId?, cleared.sections, cleared.drawingProgram]
  constructor
  · intro id
    rw [nothing]
    exact iff_of_false (cleared.programs id) List.not_mem_nil
  · rw [nothing]
    exact List.nodup_nil
  · intro compiled
    rw [not_isCompiled_of_cleared cleared] at compiled
    cases compiled
  · constructor
    · intro fresh
      rw [cleared.fresh] at fresh
      cases fresh
    · intro init
      rw [cleared.init] at init
      cases init
  · exact cleared.idle

/-- What continues the rig keeps the effect sound. -/
theorem sound_of_continues {before after : Effect σ} (sound : before.Sound)
    (same : before.rig.Continues after.rig) : after.Sound := by
  have ids : after.programId? = before.programId? := by
    funext kind
    rw [programId?, programId?, same.sections, same.drawingProgram]
  have held : after.heldPrograms = before.heldPrograms := by
    rw [heldPrograms, heldPrograms, initIds, initIds, ids, same.sections, same.drawingProgram]
  constructor
  · intro id
    rw [held, same.code]
    exact sound.live id
  · rw [held]
    exact sound.once
  · intro compiled
    rw [isCompiled, same.sections] at compiled
    rw [isLoaded, hasInfo, same.script, same.info]
    exact sound.known compiled
  · exact same.work sound.work
  · exact same.busy.trans sound.idle

/-! ## Unloading -/

theorem mem_of_mem_heldPrograms {effect : Effect σ} {id : Nat}
    (member : id ∈ effect.heldPrograms) :
    id ∈ (effect.rig.sections?.getD {}).ids ∨ id ∈ effect.rig.drawing.program?.toList := by
  rw [heldPrograms, List.mem_append, List.mem_append, List.mem_flatMap] at member
  rcases member with (init | ⟨kind, single, own⟩) | drawing
  · left
    rw [initIds] at init
    cases found : effect.rig.sections? with
    | none =>
        rw [found] at init
        cases init
    | some sections =>
        rw [found] at init
        exact CompiledSections.mem_ids_of_mem_ofKind init
  · left
    have notDrawing : kind ≠ .gfx := by
      intro same
      rw [same] at single
      revert single
      decide
    rw [programId?, if_neg notDrawing, Option.mem_toList] at own
    rcases Option.bind_eq_some_iff.mp own with ⟨sections, found, first⟩
    rw [found]
    exact CompiledSections.mem_ids_of_mem_ofKind (List.mem_of_head? first)
  · exact Or.inr drawing

/-- Unloading the code leaves no program behind. -/
theorem cleared_unloadCode {effect : Effect σ} (sound : effect.Sound) :
    effect.unloadCode.Cleared := by
  refine ⟨rfl, rfl, ?_, rfl, rfl, sound.idle⟩
  intro id left
  change id ∈ ((effect.machine.freeAll effect.rig.drawing.program?.toList).freeAll
    (effect.rig.sections?.getD {}).ids).code.programs at left
  rw [Std.HashMap.mem_iff_isSome_getElem?, Machine.programs_freeAll,
    Machine.programs_freeAll] at left
  split at left
  · cases left
  · next notSection =>
      split at left
      · cases left
      · next notDrawing =>
          -- What is left was held, and either side gives up all that it holds.
          have old := Std.HashMap.mem_iff_isSome_getElem?.mpr left
          rcases mem_of_mem_heldPrograms ((sound.live id).mp old) with own | drawing
          · exact notSection own
          · exact notDrawing drawing

theorem store_unloadCode (effect : Effect σ) :
    effect.unloadCode.store.cells = effect.store.cells := by
  change ((effect.machine.freeAll _).freeAll _).store.cells = _
  rw [Machine.store_freeAll, Machine.store_freeAll]
  rfl

theorem cleared_unload {effect : Effect σ} (sound : effect.Sound) : effect.unload.Cleared := by
  have cleared := cleared_unloadCode sound
  exact ⟨cleared.sections, cleared.drawingProgram, cleared.programs, cleared.fresh,
    cleared.init, cleared.idle⟩

/-! ## Loading -/

/-- A script that does not load leaves the effect unloaded. -/
theorem load_of_error {effect : Effect σ} {path : String} {ignoreImports : Bool}
    {failure : Failure} (failed : (effect.load path ignoreImports).result = .error failure) :
    (effect.load path ignoreImports).effect = effect.unload := by
  rw [load] at failed ⊢
  split at failed
  · cases failed
  · rfl

theorem cleared_load {effect : Effect σ} (sound : effect.Sound) (path : String)
    (ignoreImports : Bool) : (effect.load path ignoreImports).effect.Cleared := by
  have cleared := cleared_unload sound
  rw [load]
  split
  · exact ⟨cleared.sections, cleared.drawingProgram, cleared.programs, cleared.fresh,
      cleared.init, cleared.idle⟩
  · exact cleared

/-! ## Compiling -/

theorem initIds_installCode (effect : Effect σ) (sections : CompiledSections) :
    (effect.installCode sections).initIds = sections.ofKind .init :=
  sections.ofKind_takeDrawing (by decide)

theorem programId?_installCode (effect : Effect σ) (sections : CompiledSections)
    {kind : SectionKind} (other : kind ≠ .gfx) :
    (effect.installCode sections).programId? kind = sections.single? kind := by
  rw [programId?, if_neg other]
  change sections.takeDrawing.2.single? kind = _
  rw [CompiledSections.single?, CompiledSections.single?, sections.ofKind_takeDrawing other]

/-- The effect holds the programs of all sections that it takes. -/
theorem heldPrograms_installCode (effect : Effect σ) {sections : CompiledSections}
    (few : ∀ kind : SectionKind, kind ≠ .init →
      (sections.programs.map Prod.fst).count kind ≤ 1) :
    (effect.installCode sections).heldPrograms.Perm sections.ids := by
  have single : ∀ kind : SectionKind, kind ≠ .init → kind ≠ .gfx →
      ((effect.installCode sections).programId? kind).toList = sections.ofKind kind := by
    intro kind notInit notDrawing
    rw [programId?_installCode effect sections notDrawing]
    exact CompiledSections.toList_single? (few kind notInit)
  have drawing : (effect.installCode sections).rig.drawing.program?.toList =
      sections.ofKind .gfx :=
    CompiledSections.toList_single? (few .gfx (by decide))
  apply List.Perm.trans _ sections.perm_ids
  rw [heldPrograms, drawing, initIds_installCode]
  simp only [List.flatMap_cons, List.flatMap_nil, SectionKind.all, List.append_nil,
    List.append_assoc, single .slider (by decide) (by decide),
    single .block (by decide) (by decide), single .sample (by decide) (by decide),
    single .serialize (by decide) (by decide)]
  -- Only the last two kinds have changed places.
  exact ((((List.perm_append_comm.append_left _).append_left _).append_left _).append_left _)

/-- Taking compiled code makes a cleared effect sound, if a script is known and the machine
has the programs of the code and no others. -/
theorem sound_installCode {effect : Effect σ} {sections : CompiledSections}
    (loaded : effect.isLoaded = true) (informed : effect.hasInfo = true)
    (undrawn : effect.rig.drawing.program? = none)
    (idle : effect.rig.drawing.isBusy = false)
    (live : ∀ id, id ∈ effect.rig.code.programs ↔ id ∈ sections.ids)
    (distinct : sections.ids.Nodup)
    (few : ∀ kind : SectionKind, kind ≠ .init →
      (sections.programs.map Prod.fst).count kind ≤ 1) :
    (effect.installCode sections).Sound := by
  have held := heldPrograms_installCode effect few
  have code : (effect.installCode sections).rig.code = effect.rig.code := by
    change (effect.machine.freeAll effect.rig.drawing.program?.toList).code = _
    rw [undrawn]
    rfl
  constructor
  · intro id
    rw [held.mem_iff, code]
    exact live id
  · exact held.nodup_iff.mpr distinct
  · exact fun _ => ⟨loaded, informed⟩
  · exact ⟨fun _ => rfl, fun _ => rfl⟩
  · exact idle

/-- Code that does not compile leaves the script and no program. -/
theorem cleared_compile_of_error {effect : Effect σ} (sound : effect.Sound)
    {options : CompileOptions} {failure : Failure}
    (failed : (effect.compile options).result = .error failure) :
    (effect.compile options).effect.Cleared ∧
      (effect.compile options).effect.rig.script? = effect.rig.script? ∧
      (effect.compile options).effect.rig.info? = effect.rig.info? := by
  have cleared := cleared_unloadCode sound
  rw [compile] at failed ⊢
  split at failed
  · next script info _ _ =>
      split at failed
      · cases failed
      · next culprit machine stopped =>
          have restored : ∀ id : Nat, machine.code.programs[id]? =
              effect.unloadCode.rig.code.programs[id]? :=
            (CompiledSections.compile_error
              (fun id member => absurd member (cleared.programs id)) stopped).2.2
          refine ⟨⟨cleared.sections, cleared.drawingProgram, ?_, cleared.fresh, cleared.init,
            cleared.idle⟩, rfl, rfl⟩
          intro id member
          apply cleared.programs id
          rw [Std.HashMap.mem_iff_isSome_getElem?] at member ⊢
          rw [← restored id]
          exact member
  · exact ⟨cleared, rfl, rfl⟩

/-- Whether it succeeds or fails, compiling leaves a sound effect. -/
theorem sound_compile {effect : Effect σ} (sound : effect.Sound) (options : CompileOptions) :
    (effect.compile options).effect.Sound := by
  cases answer : (effect.compile options).result with
  | error failure => exact sound_of_cleared (cleared_compile_of_error sound answer).1
  | ok =>
      have cleared := cleared_unloadCode sound
      rw [compile] at answer ⊢
      split at answer
      · next script info known informed =>
          split at answer
          · next sections machine compiled =>
              rcases CompiledSections.compile_ok compiled with ⟨run, kinds⟩
              apply sound_installCode
              · exact Option.isSome_of_eq_some known
              · exact Option.isSome_of_eq_some informed
              · exact cleared.drawingProgram
              · exact cleared.idle
              · intro id
                have members := run.mem_programs id
                exact members.trans (or_iff_right (cleared.programs id))
              · exact run.nodup
              · intro kind notInit
                rw [kinds]
                exact LoadedScript.count_kinds_le script options notInit
          · cases answer
      · cases answer

/-! ## All actions -/

theorem sound_new (disk : Disk) (config : Config) :
    (Effect.new disk config : Effect σ).Sound :=
  sound_of_cleared ⟨rfl, rfl, fun _ => Std.HashMap.not_mem_empty, rfl, rfl, rfl⟩

theorem sound_act {painter : Painter σ} (confined : painter.Confined) {effect : Effect σ}
    (sound : effect.Sound) (action : HostAction σ) : (effect.act painter action).Sound := by
  cases action with
  | cycle action => exact sound_of_continues sound (continues_actInCycle effect action)
  | load path ignoreImports => exact sound_of_cleared (cleared_load sound path ignoreImports)
  | compile options => exact sound_compile sound options
  | unloadCode => exact sound_of_cleared (cleared_unloadCode sound)
  | unload => exact sound_of_cleared (cleared_unload sound)
  | saveState => exact sound_of_continues sound (continues_saveState effect)
  | loadState state => exact sound_of_continues sound (continues_loadState effect state)
  | attach surface =>
      exact sound_of_continues sound
        (continues_updateDrawing effect _ fun _ => ⟨rfl, rfl⟩)
  | setKey key pressed =>
      exact sound_of_continues sound (Continues.of_eq (rig_setKey effect key pressed))
  | setMouse modifiers x y buttons wheel sideWheel =>
      exact sound_of_continues sound
        (Continues.of_eq (rig_setMouse effect modifiers x y buttons wheel sideWheel))
  | draw => exact sound_of_continues sound (continues_draw confined effect sound.idle)
  | changeDisk disk =>
      apply sound_of_continues sound
      exact ⟨rfl, rfl, rfl, rfl, rfl, rfl, fun fits => ⟨fits.fresh, fits.due⟩⟩

theorem sound_after {painter : Painter σ} (confined : painter.Confined) {effect : Effect σ}
    (sound : effect.Sound) (actions : List (HostAction σ)) :
    (effect.after painter actions).Sound := by
  induction actions generalizing effect with
  | nil => exact sound
  | cons action others ih => exact ih (sound_act confined sound action)

/-- A cycle of compiled code that finds the machine free goes through all sections. -/
theorem process_eq_runCycle {effect : Effect σ} (sound : effect.Sound)
    (compiled : effect.isCompiled = true) (precision : Precision)
    (inputs outputs : List Channel) (frames : Nat) :
    effect.process precision inputs outputs frames =
      effect.beginCycle.runDueInit.noteMoves.runCycle precision inputs outputs frames := by
  have begun : effect.beginCycle.isCompiled = true := compiled
  have free : effect.beginCycle.rig.drawing.isBusy = false := sound.idle
  have ready : effect.beginCycle.rig.Continues effect.beginCycle.runDueInit.noteMoves.rig :=
    (continues_runDueInit _).trans (continues_noteMoves _)
  have informed : effect.beginCycle.runDueInit.noteMoves.hasInfo = true := by
    rw [hasInfo, ready.info]
    exact (sound.known compiled).2
  simp only [process, execute, begun, free, informed, Bool.not_true, Bool.false_eq_true,
    if_false, if_true]

/-- Over any run of an effect, whatever succeeds or fails on the way: the machine has
exactly the programs that the effect holds, and the effect holds none of them twice; code is
only there for a known script, so that a cycle never ends early; what is fresh has its init
sections due, and init sections are only due for compiled code.  A failed load leaves
nothing loaded and moves no slider, a failed compilation leaves the script without programs,
and unloading, with which an effect also ends, leaves no program. -/
theorem programs_are_held {painter : Painter σ} (confined : painter.Confined) (disk : Disk)
    (config : Config) (actions : List (HostAction σ)) :
    let effect := (Effect.new disk config).after painter actions
    (∀ id, id ∈ effect.rig.code.programs ↔ id ∈ effect.heldPrograms) ∧
    effect.heldPrograms.Nodup ∧
    (effect.isCompiled = true → effect.isLoaded = true ∧ effect.hasInfo = true ∧
      ∀ (precision : Precision) (inputs outputs : List Channel) (frames : Nat),
        effect.process precision inputs outputs frames =
          effect.beginCycle.runDueInit.noteMoves.runCycle precision inputs outputs frames) ∧
    (effect.rig.pending.isFresh = true → effect.rig.pending.init = true) ∧
    (effect.rig.pending.init = true → effect.isCompiled = true) ∧
    (∀ (path : String) (ignoreImports : Bool) (failure : Failure),
      (effect.load path ignoreImports).result = .error failure →
      let left := (effect.load path ignoreImports).effect
      left.isLoaded = false ∧ left.hasInfo = false ∧ left.isCompiled = false ∧
        (∀ slot, left.store.read (.slider slot) = effect.store.read (.slider slot)) ∧
        left.around.masks.visible = effect.around.masks.visible) ∧
    (∀ (options : CompileOptions) (failure : Failure),
      (effect.compile options).result = .error failure →
      let left := (effect.compile options).effect
      left.rig.script? = effect.rig.script? ∧ left.rig.info? = effect.rig.info? ∧
        left.isCompiled = false ∧ ∀ id, id ∉ left.rig.code.programs) ∧
    (∀ id, id ∉ effect.unload.rig.code.programs) ∧
    ∀ id, id ∉ effect.unloadCode.rig.code.programs := by
  intro effect
  have sound : effect.Sound := sound_after confined (sound_new disk config) actions
  refine ⟨sound.live, sound.once, ?_, sound.work.fresh, sound.work.due, ?_, ?_,
    (cleared_unload sound).programs, (cleared_unloadCode sound).programs⟩
  · intro compiled
    rcases sound.known compiled with ⟨loaded, informed⟩
    exact ⟨loaded, informed, process_eq_runCycle sound compiled⟩
  · intro path ignoreImports failure failed
    rw [load_of_error failed]
    refine ⟨rfl, rfl, not_isCompiled_of_cleared (cleared_unload sound), ?_, rfl⟩
    intro slot
    have same : effect.unload.store.cells = effect.store.cells := store_unloadCode effect
    rw [Store.read, Store.read, Store.get, Store.get, same]
  · intro options failure failed
    rcases cleared_compile_of_error sound failed with ⟨cleared, script, info⟩
    exact ⟨script, info, not_isCompiled_of_cleared cleared, cleared.programs⟩

/-- A script with an init and a drawing section, on a backend that puts the arguments of
drawing functions into memory.  Loading another script then fails. -/
theorem programs_are_held_drawing :
    let painter : Painter Unit :=
      { size := fun _ => (4, 3), scale := fun _ => 1.0, reset := fun surface => surface
        call := fun _ args effect =>
          (0.0, effect.actInPass (.writeRange 0 (args.map Arg.value).toArray))
        takeDirty := fun surface => (true, surface) }
    let disk := Disk.empty.addFile ["script"] "@init\n@gfx\n".toUTF8
    let effect := (Effect.new disk {}).after painter
      [.load "/script" false, .compile {}, .draw, .cycle (.process .double [] [] 64)]
    painter.Confined ∧ effect.heldPrograms = [1, 2] ∧
      (∀ id, id ∈ effect.rig.code.programs ↔ id ∈ [1, 2]) ∧ effect.hasInfo = true ∧
      (effect.load "/other" false).effect.isLoaded = false ∧
      ∀ id, id ∉ effect.unload.rig.code.programs := by
  intro painter disk effect
  have confined : painter.Confined :=
    fun _ args _ => ⟨[.writeRange 0 (args.map Arg.value).toArray], rfl⟩
  have law := programs_are_held confined disk {}
    [.load "/script" false, .compile {}, .draw, .cycle (.process .double [] [] 64)]
  rcases law with ⟨live, _, known, _, _, unread, _, unloaded, _⟩
  have held : effect.heldPrograms = [1, 2] := by decide +kernel
  have compiled : effect.isCompiled = true := by decide +kernel
  have failed : (effect.load "/other" false).result.isOk = false := by decide +kernel
  refine ⟨confined, held, ?_, (known compiled).2.1, ?_, unloaded⟩
  · rw [← held]
    exact live
  · cases answer : (effect.load "/other" false).result with
    | ok =>
        rw [answer] at failed
        cases failed
    | error failure => exact (unread "/other" false failure answer).1

end Effect
end EffectHost

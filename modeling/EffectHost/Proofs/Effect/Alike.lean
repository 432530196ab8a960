import EffectHost.Proofs.Effect.DueWork
import EffectHost.Proofs.Host.Agreement

/-!
# Cycles that cannot be told apart

A script that has no block section and whose code does not look at what a cycle tells about
itself cannot tell two effects apart that differ only there and in the block size that the
host has announced.  Whatever an effect does in a cycle, it does alike in both, and what
happens in front of the frames of a cycle leaves no trace if nothing is due.
-/

namespace EffectHost

open HostFunction

namespace Effect

open Rig

variable {σ : Type} {config : Config}

/-- Two effects of which the code cannot tell which is which. -/
structure Alike (first second : Effect σ) : Prop where
  state : HostFunction.Alike (first.store, first.around) (second.store, second.around)
  rig : ∃ size, second.rig = { first.rig with blockSize := size }

/-- The script has no block section, and the code that runs in cycles refers to none of the
variables that every cycle sets. -/
structure IgnoresBlocks (effect : Effect σ) : Prop where
  unblocked : ∀ script, effect.rig.script? = some script → script.has .block = false
  lasting : ∀ program ∈ effect.initPrograms ++ (effect.program? .slider).toList ++
    (effect.program? .sample).toList, program.Within Cell.Lasting

theorem ignoresBlocks_iff (effect : Effect σ) :
    effect.IgnoresBlocks ↔
      (effect.rig.script?.all fun script => !script.has .block) = true ∧
        ∀ program ∈ effect.initPrograms ++ (effect.program? .slider).toList ++
          (effect.program? .sample).toList, program.Within Cell.Lasting := by
  constructor
  · rintro ⟨unblocked, lasting⟩
    refine ⟨?_, lasting⟩
    cases known : effect.rig.script? with
    | none => rfl
    | some script => simp [unblocked script known]
  · rintro ⟨unblocked, lasting⟩
    refine ⟨?_, lasting⟩
    intro script known
    simpa [known] using unblocked

instance (effect : Effect σ) : Decidable effect.IgnoresBlocks :=
  decidable_of_iff' _ effect.ignoresBlocks_iff

theorem IgnoresBlocks.of_keepsCode {before after : Effect σ} (ignores : before.IgnoresBlocks)
    (keeps : before.rig.KeepsCode after.rig) : after.IgnoresBlocks := by
  constructor
  · rw [keeps.script]
    exact ignores.unblocked
  · rw [initPrograms, program?, program?, initIds_of_keepsCode keeps,
      programId?_of_keepsCode keeps, programOf_of_keepsCode keeps]
    exact ignores.lasting

theorem IgnoresBlocks.init {effect : Effect σ} (ignores : effect.IgnoresBlocks)
    {program : Program} (member : program ∈ effect.initPrograms) :
    program.Within Cell.Lasting :=
  ignores.lasting program (List.mem_append_left _ (List.mem_append_left _ member))

theorem IgnoresBlocks.slider {effect : Effect σ} (ignores : effect.IgnoresBlocks)
    {program : Program} (found : effect.program? .slider = some program) :
    program.Within Cell.Lasting := by
  apply ignores.lasting program
  simp [found]

theorem IgnoresBlocks.sample {effect : Effect σ} (ignores : effect.IgnoresBlocks)
    {program : Program} (found : effect.program? .sample = some program) :
    program.Within Cell.Lasting := by
  apply ignores.lasting program
  simp [found]

/-- Without a block section there is no program for one. -/
theorem program?_block {effect : Effect σ} (grounded : effect.Grounded config)
    (compiled : effect.isCompiled = true) (ignores : effect.IgnoresBlocks) :
    effect.program? .block = none := by
  rcases grounded.compiled compiled with ⟨script, known, sections⟩
  cases found : effect.programId? .block with
  | none => rw [program?, found, Option.map_none]
  | some id =>
      have has := sections .block (by decide) (by decide) (Option.isSome_of_eq_some found)
      rw [ignores.unblocked script known] at has
      cases has

namespace Alike

variable {first second third : Effect σ}

theorem refl {effect : Effect σ} (input : effect.around.input.Holds [])
    (output : effect.around.output.extensible = true) : Alike effect effect :=
  ⟨HostFunction.Alike.refl input output, effect.rig.blockSize, rfl⟩

theorem symm (alike : Alike first second) : Alike second first := by
  rcases alike.rig with ⟨size, same⟩
  refine ⟨alike.state.symm, first.rig.blockSize, ?_⟩
  rw [same]

theorem trans (left : Alike first second) (right : Alike second third) :
    Alike first third := by
  rcases left.rig with ⟨size, same⟩
  rcases right.rig with ⟨other, again⟩
  refine ⟨left.state.trans right.state, other, ?_⟩
  rw [again, same]

theorem keepsCode (alike : Alike first second) : first.rig.KeepsCode second.rig := by
  rcases alike.rig with ⟨size, same⟩
  rw [same]
  exact ⟨rfl, rfl, rfl, rfl, rfl⟩

theorem facts (alike : Alike first second) : second.facts = first.facts := by
  rcases alike.rig with ⟨size, same⟩
  simp only [Effect.facts, Effect.header, same]

theorem program? (alike : Alike first second) : second.program? = first.program? := by
  funext kind
  rw [Effect.program?, Effect.program?, programId?_of_keepsCode alike.keepsCode,
    programOf_of_keepsCode alike.keepsCode]

theorem initPrograms (alike : Alike first second) :
    second.initPrograms = first.initPrograms := by
  rw [Effect.initPrograms, Effect.initPrograms, initIds_of_keepsCode alike.keepsCode,
    programOf_of_keepsCode alike.keepsCode]

theorem pending (alike : Alike first second) : second.rig.pending = first.rig.pending := by
  rcases alike.rig with ⟨size, same⟩
  rw [same]

theorem hasInfo (alike : Alike first second) : second.hasInfo = first.hasInfo := by
  rw [Effect.hasInfo, Effect.hasInfo, alike.keepsCode.info]

theorem header (alike : Alike first second) : second.header = first.header := by
  rw [Effect.header, Effect.header, alike.keepsCode.info]

/-- A change of the work that waits does not tell which effect is which. -/
theorem updatePending (alike : Alike first second) (change : PendingWork → PendingWork) :
    Alike (first.updatePending change) (second.updatePending change) := by
  rcases alike.rig with ⟨size, same⟩
  refine ⟨alike.state, size, ?_⟩
  simp only [Effect.updatePending, same]

/-! ## Steps of a cycle -/

/-- Code of a cycle that does not look at the cycle leaves effects alike. -/
theorem run (alike : Alike first second) {program : Program}
    (within : program.Within Cell.Lasting) :
    Alike (first.run cycleCaller program) (second.run cycleCaller program) := by
  have deaf : cycleCaller.mayUseKeyboard = false := rfl
  have ran := Code.run_agrees (respects_call first.facts deaf) within alike.state
  refine ⟨?_, alike.rig⟩
  simp only [Effect.run, codeHost, alike.facts]
  exact ran

theorem beginCycle (alike : Alike first second) :
    Alike first.beginCycle second.beginCycle := by
  rcases alike.rig with ⟨size, same⟩
  refine ⟨?_, size, ?_⟩
  · exact ⟨alike.state.store.tellBoth (by decide) _ _, alike.state.files,
      alike.state.visible, alike.state.firstInput.of_bytes rfl,
      alike.state.secondInput.of_bytes rfl, alike.state.firstOutput, alike.state.secondOutput⟩
  · simp only [Effect.beginCycle, same]

theorem clearInput (alike : Alike first second) :
    Alike first.clearInput second.clearInput :=
  ⟨⟨alike.state.store, alike.state.files, alike.state.visible, MidiLog.holds_clear _,
    MidiLog.holds_clear _, alike.state.firstOutput, alike.state.secondOutput⟩, alike.rig⟩

theorem prepareFresh (alike : Alike first second) :
    Alike first.prepareFresh second.prepareFresh := by
  have masks : SliderMasks.initiallyVisible first.header =
      SliderMasks.initiallyVisible second.header := by
    rw [alike.header]
  have told := alike.state.store.tellBoth (by decide : .blockSize ∈ HostVariable.ofCycle)
    (Float.ofNat first.rig.blockSize) (Float.ofNat second.rig.blockSize)
  have written : Store.Alike first.prepareFresh.store second.prepareFresh.store := by
    rw [Effect.prepareFresh, Effect.prepareFresh, Store.writeAll_cons, Store.writeAll_cons]
    exact told.writeAll [(.delay, 0.0), (.delayBottom, 0.0), (.delayTop, 0.0),
      (.delayMidi, 0.0)]
  refine ⟨⟨written, alike.state.files, masks, alike.state.firstInput,
    alike.state.secondInput, alike.state.firstOutput, alike.state.secondOutput⟩, ?_⟩
  rw [rig_prepareFresh, rig_prepareFresh]
  exact alike.rig

theorem startInit (alike : Alike first second) : Alike first.startInit second.startInit := by
  have prepared : Alike (if first.rig.pending.isFresh then first.prepareFresh else first)
      (if second.rig.pending.isFresh then second.prepareFresh else second) := by
    rw [alike.pending]
    split
    · exact alike.prepareFresh
    · exact alike
  rcases prepared.rig with ⟨size, same⟩
  rw [Effect.startInit, Effect.startInit]
  refine ⟨?_, size, same⟩
  dsimp only
  rw [same, prepared.state.files]
  exact ⟨prepared.state.store.set _ _, rfl, prepared.state.visible,
    prepared.state.firstInput, prepared.state.secondInput, prepared.state.firstOutput,
    prepared.state.secondOutput⟩

theorem runInitPrograms (alike : Alike first second) (ignores : first.IgnoresBlocks) :
    Alike first.runInitPrograms second.runInitPrograms := by
  have onward : ∀ (programs : List Program) (left right : Effect σ), Alike left right →
      (∀ program ∈ programs, program.Within Cell.Lasting) →
        Alike (programs.foldl (fun effect program => effect.run cycleCaller program) left)
          (programs.foldl (fun effect program => effect.run cycleCaller program) right) := by
    intro programs
    induction programs with
    | nil => exact fun _ _ same _ => same
    | cons program others ih =>
        intro left right same within
        rw [List.forall_mem_cons] at within
        exact ih _ _ (same.run within.1) within.2
  rw [Effect.runInitPrograms, Effect.runInitPrograms, alike.initPrograms]
  exact onward _ first second alike fun _ => ignores.init

theorem noteInit (alike : Alike first second) : Alike first.noteInit second.noteInit := by
  have retina : first.store.read .gfxRetina = second.store.read .gfxRetina :=
    alike.state.store.read (by decide)
  rcases alike.rig with ⟨size, same⟩
  refine ⟨alike.state, size, ?_⟩
  simp only [Effect.noteInit, Effect.updateDrawing, Effect.updatePending, same, retina]

theorem runDueInit (alike : Alike first second) (ignores : first.IgnoresBlocks) :
    Alike first.runDueInit second.runDueInit := by
  have started : first.startInit.IgnoresBlocks := by
    apply ignores.of_keepsCode
    rw [rig_startInit]
    exact KeepsCode.refl _
  rw [Effect.runDueInit, Effect.runDueInit, alike.pending, Effect.runInit, Effect.runInit,
    alike.hasInfo]
  split
  · split
    · exact (alike.startInit.runInitPrograms started).noteInit
    · exact alike
  · exact alike

theorem noteMoves (alike : Alike first second) : Alike first.noteMoves second.noteMoves :=
  alike.updatePending _

/-- It does not matter how many frames and channels a cycle tells. -/
theorem tellCycle (alike : Alike first second) (plan other : ChannelPlan)
    (frames others : Nat) :
    Alike (first.tellCycle plan frames) (second.tellCycle other others) := by
  have told := alike.state.store.tellBoth (by decide : .blockSize ∈ HostVariable.ofCycle)
    (Float.ofNat frames) (Float.ofNat others)
  have counted := told.tellBoth (by decide : .channelCount ∈ HostVariable.ofCycle)
    (Float.ofNat plan.inputs) (Float.ofNat other.inputs)
  exact ⟨⟨counted, alike.state.files, alike.state.visible, alike.state.firstInput,
    alike.state.secondInput, alike.state.firstOutput, alike.state.secondOutput⟩, alike.rig⟩

theorem runDueSlider (alike : Alike first second) (ignores : first.IgnoresBlocks) :
    Alike first.runDueSlider second.runDueSlider := by
  have ran : Alike (first.runSection cycleCaller .slider)
      (second.runSection cycleCaller .slider) := by
    rw [runSection, runSection, alike.program?]
    cases found : first.program? .slider with
    | none => exact alike
    | some program => exact alike.run (ignores.slider found)
  rw [Effect.runDueSlider, Effect.runDueSlider, alike.pending]
  apply updatePending
  split
  · exact ran
  · exact alike

end Alike

/-! ## In front of the frames -/

/-- What a cycle does in front of its frames. -/
def opened (effect : Effect σ) (plan : ChannelPlan) (frames : Nat) : Effect σ :=
  (effect.beginCycle.runDueInit.noteMoves.tellCycle plan frames).runDueSlider

theorem keepsCode_opened (effect : Effect σ) (plan : ChannelPlan) (frames : Nat) :
    effect.rig.KeepsCode (effect.opened plan frames).rig := by
  have begun : effect.rig.KeepsCode effect.beginCycle.rig := ⟨rfl, rfl, rfl, rfl, rfl⟩
  have ready := (continues_runDueInit effect.beginCycle).trans (continues_noteMoves _)
  have told : (effect.beginCycle.runDueInit.noteMoves.tellCycle plan frames).rig.Continues
      (effect.opened plan frames).rig := continues_runDueSlider _
  exact begun.trans (KeepsCode.of_continues (ready.trans told))

/-- Effects that are alike open a cycle alike, whatever it tells them. -/
theorem Alike.opened {first second : Effect σ} (alike : Alike first second)
    (ignores : first.IgnoresBlocks) (plan other : ChannelPlan) (frames others : Nat) :
    Alike (first.opened plan frames) (second.opened other others) := by
  have begun : first.beginCycle.IgnoresBlocks :=
    ignores.of_keepsCode ⟨rfl, rfl, rfl, rfl, rfl⟩
  have ready := (alike.beginCycle.runDueInit begun).noteMoves
  have still : (first.beginCycle.runDueInit.noteMoves.tellCycle plan frames).IgnoresBlocks :=
    begun.of_keepsCode (KeepsCode.of_continues
      ((continues_runDueInit first.beginCycle).trans (continues_noteMoves _)))
  exact (ready.tellCycle plan other frames others).runDueSlider still

/-- If nothing is due, opening a cycle leaves no trace. -/
theorem alike_opened {effect : Effect σ} (input : effect.around.input.Holds [])
    (output : effect.around.output.extensible = true)
    (nothing : effect.noted = ⟨false, false, Mask.empty⟩) (plan : ChannelPlan)
    (frames : Nat) : Alike effect (effect.opened plan frames) := by
  have begun := (Store.Alike.refl effect.store).told
    (by decide : .trigger ∈ HostVariable.ofCycle) effect.rig.pending.triggers.toFloat
  have sized := begun.told (by decide : .blockSize ∈ HostVariable.ofCycle)
    (Float.ofNat frames)
  have told := sized.told (by decide : .channelCount ∈ HostVariable.ofCycle)
    (Float.ofNat plan.inputs)
  have same : effect.opened plan frames =
      ⟨(effect.beginCycle.tellCycle plan frames).store, effect.beginCycle.around,
        effect.rig⟩ := by
    rcases effect with ⟨store, around, rig⟩
    rcases rig with ⟨disk, config, code, script?, info?, sections?, drawing, pending, _, _, _⟩
    rcases pending with ⟨isFresh, init, slider, moved, triggers⟩
    simp only [noted, DueWork.mk.injEq, Bool.or_eq_false_iff] at nothing
    rcases nothing with ⟨rfl, ⟨rfl, rfl⟩, rfl⟩
    rfl
  rw [same]
  exact ⟨⟨told, rfl, rfl, input, input.of_bytes rfl, output, output⟩,
    effect.rig.blockSize, rfl⟩

end Effect
end EffectHost

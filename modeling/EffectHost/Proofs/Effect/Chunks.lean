import EffectHost.Proofs.Effect.Alike
import EffectHost.Proofs.Effect.Slices

/-!
# Blocks in chunks

A host hands over audio in chunks of any size, one cycle for each.  Only the first of these
cycles finds work that is due.  The others find nothing due, and what they do in front of
their frames leaves no trace that the script could see, so that all of them together are one
block behind one opening: where the audio was cut cannot be told from the result.
-/

namespace EffectHost

open Channel HostFunction

namespace Effect

open Rig

variable {σ : Type} {config : Config}

/-- Process the channels from a frame on in chunks of some sizes.  The result has the
output of the chunks, joined. -/
def processChunks (effect : Effect σ) (precision : Precision) (inputs outputs : List Channel) :
    Nat → List Nat → List Channel × Effect σ
  | _, [] => (outputs.map fun _ => #[], effect)
  | start, size :: others =>
    let done := effect.process precision (slices start size inputs)
      (slices start size outputs) size
    let rest := done.2.processChunks precision inputs outputs (start + size) others
    (joined done.1 rest.1, rest.2)

/-- Two runs put out the same samples and leave effects that are alike. -/
def SameRun (first second : List Channel × Effect σ) : Prop :=
  first.1 = second.1 ∧ Alike first.2 second.2

theorem SameRun.symm {first second : List Channel × Effect σ} (same : SameRun first second) :
    SameRun second first :=
  ⟨same.1.symm, same.2.symm⟩

theorem SameRun.trans {first second third : List Channel × Effect σ}
    (left : SameRun first second) (right : SameRun second third) : SameRun first third :=
  ⟨left.1.trans right.1, left.2.trans right.2⟩

/-! ## The frames of effects that are alike -/

theorem outputFrame_of_alike {first second : Store} (alike : Store.Alike first second)
    (plan : ChannelPlan) (precision : Precision) :
    outputFrame plan precision first = outputFrame plan precision second := by
  have reads : ∀ channel, first.read (.channel channel) = second.read (.channel channel) := by
    intro channel
    apply alike.read
    simp [HostVariable.ofCycle]
  simp only [outputFrame, reads]

theorem foldl_runFrame_agrees {host : CodeHost Surroundings}
    (respects : host.Respects Cell.Lasting HostFunction.Alike) {program : Program}
    (within : program.Within Cell.Lasting) (plan : ChannelPlan) (precision : Precision)
    (inputs : List Channel) (frames : List Nat) (rows : Array (Array Float))
    {first second : State} (alike : HostFunction.Alike first second) :
    let ran := frames.foldl (runFrame host program plan precision inputs) (rows, first)
    let again := frames.foldl (runFrame host program plan precision inputs) (rows, second)
    ran.1 = again.1 ∧ HostFunction.Alike ran.2 again.2 := by
  induction frames generalizing rows first second with
  | nil => exact ⟨rfl, alike⟩
  | cons frame others ih =>
      have fed : HostFunction.Alike (feedFrame plan inputs frame first.1, first.2)
          (feedFrame plan inputs frame second.1, second.2) := by
        rw [feedFrame_eq_writeAll, feedFrame_eq_writeAll]
        exact ⟨alike.store.writeAll _, alike.files, alike.visible, alike.firstInput,
          alike.secondInput, alike.firstOutput, alike.secondOutput⟩
      have ran := Code.run_agrees respects within fed
      simp only [List.foldl_cons, runFrame, outputFrame_of_alike ran.store]
      exact ih _ ran

/-- Effects that are alike run a block alike. -/
theorem runBlock_agrees {first second : Effect σ} (alike : Alike first second)
    (ignores : first.IgnoresBlocks) (plan : ChannelPlan) (precision : Precision)
    (inputs outputs : List Channel) (frames : Nat) :
    SameRun (first.runBlock plan precision inputs outputs frames)
      (second.runBlock plan precision inputs outputs frames) := by
  have host : second.codeHost cycleCaller = first.codeHost cycleCaller := by
    rw [codeHost, codeHost, alike.facts]
  rw [runBlock, runBlock, alike.program?, host]
  cases found : first.program? .sample with
  | none => exact ⟨rfl, alike⟩
  | some program =>
      have deaf : cycleCaller.mayUseKeyboard = false := rfl
      rcases foldl_runFrame_agrees (respects_call first.facts deaf) (ignores.sample found)
        plan precision inputs (List.range frames) #[] alike.state with ⟨rows, states⟩
      simp only [runFrames_eq_runSomeFrames]
      exact ⟨congrArg (collect plan · outputs) rows, states, alike.rig⟩

/-! ## One cycle -/

/-- Compiled code that ignores blocks, without MIDI events that wait. -/
structure Steady (config : Config) (effect : Effect σ) : Prop where
  grounded : effect.Grounded config
  grows : config.midiOutputExtensible = true
  compiled : effect.isCompiled = true
  ignores : effect.IgnoresBlocks
  input : effect.around.input.Holds []

theorem Steady.refl {effect : Effect σ} (steady : effect.Steady config) :
    Alike effect effect :=
  Alike.refl steady.input (steady.grounded.output.trans steady.grows)

/-- A cycle leaves steady code steady. -/
theorem Steady.process {effect : Effect σ} (steady : effect.Steady config)
    (precision : Precision) (inputs outputs : List Channel) (frames : Nat) :
    (effect.process precision inputs outputs frames).2.Steady config := by
  have keeps : effect.rig.KeepsCode (effect.process precision inputs outputs frames).2.rig :=
    KeepsCode.of_continues (continues_process effect precision inputs outputs frames)
  have compiled : (effect.process precision inputs outputs frames).2.isCompiled = true := by
    rw [isCompiled, keeps.sections]
    exact steady.compiled
  refine ⟨grounded_actInCycle steady.grounded (.process precision inputs outputs frames),
    steady.grows, compiled, steady.ignores.of_keepsCode keeps, ?_⟩
  have informed := steady.grounded.hasInfo steady.compiled
  cases busy : effect.rig.drawing.isBusy with
  | true =>
      rw [process_of_busy steady.compiled busy]
      exact MidiLog.holds_clear _
  | false =>
      rw [process_of_idle steady.compiled informed busy]
      exact MidiLog.holds_clear _

/-- Without a block section a cycle opens and runs its frames. -/
theorem process_eq_opened {effect : Effect σ} (steady : effect.Steady config)
    (idle : effect.rig.drawing.isBusy = false) (precision : Precision)
    (inputs outputs : List Channel) (frames : Nat) :
    let plan := ChannelPlan.of effect.header inputs outputs
    let done := (effect.opened plan frames).runBlock plan precision inputs outputs frames
    effect.process precision inputs outputs frames = (done.1, done.2.clearInput) := by
  intro plan done
  have informed := steady.grounded.hasInfo steady.compiled
  have header : effect.beginCycle.runDueInit.noteMoves.header = effect.header := by
    rw [Effect.header, Effect.header,
      ((continues_runDueInit effect.beginCycle).trans (continues_noteMoves _)).info]
    rfl
  have keeps := keepsCode_opened effect plan frames
  have unblocked : (effect.opened plan frames).program? .block = none := by
    rw [program?, programId?_of_keepsCode keeps, programOf_of_keepsCode keeps]
    exact program?_block steady.grounded steady.compiled steady.ignores
  have blockless : (effect.opened plan frames).runSection cycleCaller .block =
      effect.opened plan frames := by
    rw [runSection, unblocked]
  rw [process_of_idle steady.compiled informed idle, runCycle, header]
  change ((((effect.opened plan frames).runSection cycleCaller .block).runBlock plan precision
      inputs outputs frames).1, (((effect.opened plan frames).runSection cycleCaller
        .block).runBlock plan precision inputs outputs frames).2.clearInput) = _
  rw [blockless]

/-- Dropping the input leaves no trace where no event waits. -/
theorem alike_clearInput {effect : Effect σ} (alike : Alike effect effect) :
    Alike effect.clearInput effect :=
  ⟨⟨alike.state.store, rfl, rfl, MidiLog.holds_clear _, alike.state.firstInput,
    alike.state.firstOutput, alike.state.firstOutput⟩, effect.rig.blockSize, rfl⟩

theorem isBusy_process (effect : Effect σ) (precision : Precision)
    (inputs outputs : List Channel) (frames : Nat) :
    (effect.process precision inputs outputs frames).2.rig.drawing.isBusy =
      effect.rig.drawing.isBusy :=
  (continues_process effect precision inputs outputs frames).busy

theorem header_process (effect : Effect σ) (precision : Precision)
    (inputs outputs : List Channel) (frames : Nat) :
    (effect.process precision inputs outputs frames).2.header = effect.header := by
  rw [header, header, (continues_process effect precision inputs outputs frames).info]

/-! ## Chunks -/

/-- A chunk and those behind it are one block, if those behind it are. -/
theorem processChunks_cons {effect : Effect σ} (steady : effect.Steady config)
    (idle : effect.rig.drawing.isBusy = false) (precision : Precision)
    (inputs outputs : List Channel) (start size : Nat) (others : List Nat)
    (behind : let plan := ChannelPlan.of effect.header inputs outputs
      let done := (effect.process precision (slices start size inputs)
        (slices start size outputs) size).2
      SameRun (done.processChunks precision inputs outputs (start + size) others)
        (done.runBlock plan precision (slices (start + size) others.sum inputs)
          (slices (start + size) others.sum outputs) others.sum)) :
    let plan := ChannelPlan.of effect.header inputs outputs
    SameRun (effect.processChunks precision inputs outputs start (size :: others))
      ((effect.opened plan size).runBlock plan precision
        (slices start (size + others.sum) inputs) (slices start (size + others.sum) outputs)
        (size + others.sum)) := by
  intro plan
  let early := (effect.opened plan size).runBlock plan precision (slices start size inputs)
    (slices start size outputs) size
  have processed : effect.process precision (slices start size inputs)
      (slices start size outputs) size = (early.1, early.2.clearInput) := by
    have opened := process_eq_opened steady idle precision (slices start size inputs)
      (slices start size outputs) size
    simp only [ChannelPlan.of_slices] at opened
    exact opened
  have keeps := keepsCode_opened effect plan size
  have begun : Alike early.2 early.2 :=
    (runBlock_agrees (steady.refl.opened steady.ignores plan plan size size)
      (steady.ignores.of_keepsCode keeps) plan precision _ _ size).2
  have ignores : early.2.clearInput.IgnoresBlocks := by
    have still := (steady.process precision (slices start size inputs)
      (slices start size outputs) size).ignores
    rw [processed] at still
    exact still
  rw [processed] at behind
  have later := behind.trans (runBlock_agrees (alike_clearInput begun) ignores plan precision
    (slices (start + size) others.sum inputs) (slices (start + size) others.sum outputs)
    others.sum)
  rw [runBlock_slices_add, processChunks, processed]
  exact ⟨congrArg (joined early.1) later.1, later.2⟩

/-- If nothing is due, chunks are one block. -/
theorem processChunks_of_settled {effect : Effect σ} (steady : effect.Steady config)
    (idle : effect.rig.drawing.isBusy = false)
    (nothing : effect.noted = ⟨false, false, Mask.empty⟩) (precision : Precision)
    (inputs outputs : List Channel) (start : Nat) (sizes : List Nat) :
    let plan := ChannelPlan.of effect.header inputs outputs
    SameRun (effect.processChunks precision inputs outputs start sizes)
      (effect.runBlock plan precision (slices start sizes.sum inputs)
        (slices start sizes.sum outputs) sizes.sum) := by
  intro plan
  induction sizes generalizing effect start with
  | nil =>
      rw [List.sum_nil, runBlock_slices_zero]
      exact ⟨rfl, steady.refl⟩
  | cons size others ih =>
      let done := (effect.process precision (slices start size inputs)
        (slices start size outputs) size).2
      have still : done.Steady config := steady.process _ _ _ _
      have free : done.rig.drawing.isBusy = false := (isBusy_process _ _ _ _ _).trans idle
      have informed := steady.grounded.hasInfo steady.compiled
      have settled : done.noted = ⟨false, false, Mask.empty⟩ :=
        noted_process_of_idle steady.compiled informed idle _ _ _ _
      have header : done.header = effect.header := header_process _ _ _ _ _
      have behind := ih still free settled (start + size)
      rw [header] at behind
      have chunks := processChunks_cons steady idle precision inputs outputs start size
        others behind
      have opened := alike_opened steady.input
        (steady.grounded.output.trans steady.grows) nothing plan size
      rw [List.sum_cons]
      exact chunks.trans (runBlock_agrees opened steady.ignores plan precision _ _ _).symm

/-- Chunks are one block behind one opening. -/
theorem processChunks_of_idle {effect : Effect σ} (steady : effect.Steady config)
    (idle : effect.rig.drawing.isBusy = false) (precision : Precision)
    (inputs outputs : List Channel) (start size : Nat) (others : List Nat) :
    let plan := ChannelPlan.of effect.header inputs outputs
    SameRun (effect.processChunks precision inputs outputs start (size :: others))
      ((effect.opened plan size).runBlock plan precision
        (slices start (size + others.sum) inputs) (slices start (size + others.sum) outputs)
        (size + others.sum)) := by
  let done := (effect.process precision (slices start size inputs)
    (slices start size outputs) size).2
  have informed := steady.grounded.hasInfo steady.compiled
  have settled : done.noted = ⟨false, false, Mask.empty⟩ :=
    noted_process_of_idle steady.compiled informed idle _ _ _ _
  have behind := processChunks_of_settled (steady.process _ _ _ _)
    ((isBusy_process _ _ _ _ _).trans idle) settled precision inputs outputs (start + size)
    others
  rw [header_process] at behind
  exact processChunks_cons steady idle precision inputs outputs start size others behind

/-- A cycle that passes by leaves no trace where no event waits. -/
theorem alike_bypass {effect : Effect σ} (steady : effect.Steady config)
    (inputs outputs : List Channel) (frames : Nat) :
    Alike (effect.beginCycle.bypass effect.rig.pending.triggers inputs outputs frames).2
      effect := by
  have grows := steady.grounded.output.trans steady.grows
  have told := (Store.Alike.refl effect.store).told
    (by decide : .trigger ∈ HostVariable.ofCycle) effect.rig.pending.triggers.toFloat
  refine ⟨⟨told.symm, rfl, rfl, MidiLog.holds_clear _, steady.input,
    (MidiLog.extensible_pushAll _ _).trans grows, grows⟩, effect.rig.blockSize, ?_⟩
  rw [rig_bypass_beginCycle]

/-- During a drawing pass chunks pass by as one block would. -/
theorem processChunks_of_busy {effect : Effect σ} (steady : effect.Steady config)
    (busy : effect.rig.drawing.isBusy = true) (precision : Precision)
    (inputs outputs : List Channel) (start : Nat) (sizes : List Nat) :
    let plan := ChannelPlan.of effect.header inputs outputs
    SameRun (effect.processChunks precision inputs outputs start sizes)
      (passed (min plan.inputs plan.outputs) sizes.sum (slices start sizes.sum inputs)
        (slices start sizes.sum outputs), effect) := by
  intro plan
  induction sizes generalizing effect start with
  | nil =>
      rw [List.sum_nil, passed_slices_zero]
      exact ⟨rfl, steady.refl⟩
  | cons size others ih =>
      let done := effect.process precision (slices start size inputs)
        (slices start size outputs) size
      have processed : done = effect.beginCycle.bypass effect.rig.pending.triggers
          (slices start size inputs) (slices start size outputs) size :=
        process_of_busy steady.compiled busy _ _ _ _
      have alike : Alike done.2 effect := by
        rw [processed]
        exact alike_bypass steady _ _ size
      have channels : done.1 = passed (min plan.inputs plan.outputs) size
          (slices start size inputs) (slices start size outputs) := by
        have known : effect.beginCycle.header = effect.header := rfl
        rw [processed, bypass]
        dsimp only
        rw [ChannelPlan.of_slices, known]
      have taken : done.2.rig.drawing.isBusy = true := (isBusy_process _ _ _ _ _).trans busy
      have behind := ih (steady.process _ _ _ _) taken (start + size)
      rw [header_process] at behind
      rw [List.sum_cons, processChunks, ← passed_slices_joined]
      refine ⟨?_, behind.2.trans alike⟩
      rw [← channels]
      exact congrArg (joined done.1) behind.1

/-- Where audio is cut into chunks cannot be told from the result. -/
theorem processChunks_agree {first second : Effect σ} (alike : Alike first second)
    (steady : first.Steady config) (again : second.Steady config) (precision : Precision)
    (inputs outputs : List Channel) {sizes others : List Nat}
    (positive : ∀ size ∈ sizes ++ others, 0 < size) (same : sizes.sum = others.sum) :
    SameRun (first.processChunks precision inputs outputs 0 sizes)
      (second.processChunks precision inputs outputs 0 others) := by
  rcases alike.rig with ⟨size, rig⟩
  have busy : second.rig.drawing.isBusy = first.rig.drawing.isBusy := by
    rw [rig]
  cases taken : first.rig.drawing.isBusy with
  | true =>
      have passes := processChunks_of_busy steady taken precision inputs outputs 0 sizes
      have passesAgain := processChunks_of_busy again (busy.trans taken) precision inputs outputs
        0 others
      rw [alike.header, ← same] at passesAgain
      exact ⟨passes.1.trans passesAgain.1.symm, (passes.2.trans alike).trans passesAgain.2.symm⟩
  | false =>
      rw [List.forall_mem_append] at positive
      cases sizes with
      | nil =>
          cases others with
          | nil => exact ⟨rfl, alike⟩
          | cons other rest =>
              have filled := positive.2 other List.mem_cons_self
              rw [List.sum_nil, List.sum_cons] at same
              omega
      | cons size rest =>
          cases others with
          | nil =>
              have filled := positive.1 size List.mem_cons_self
              rw [List.sum_nil, List.sum_cons] at same
              omega
          | cons other more =>
              let plan := ChannelPlan.of first.header inputs outputs
              have early := processChunks_of_idle steady taken precision inputs outputs 0
                size rest
              have late := processChunks_of_idle again (busy.trans taken) precision inputs
                outputs 0 other more
              rw [List.sum_cons, List.sum_cons] at same
              rw [alike.header, ← same] at late
              have opened := alike.opened steady.ignores plan plan size other
              have ignores := steady.ignores.of_keepsCode (keepsCode_opened first plan size)
              exact (early.trans (runBlock_agrees opened ignores plan precision _ _ _)).trans
                late.symm

end Effect
end EffectHost

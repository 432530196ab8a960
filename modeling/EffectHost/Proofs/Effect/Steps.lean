import EffectHost.Proofs.Effect.Actions
import EffectHost.Proofs.Host.Frame
import Mathlib

/-!
# Steps of an effect

What an effect does in a cycle, or to save or restore a state, is a list of steps, and
the list can be told beforehand from the work that is due.  Code runs in one kind of step
only.  So the list tells which programs run, how often and in which order, and what every
step preserves is preserved by cycles and states.
-/

namespace EffectHost

/-- What an effect does at once. -/
inductive Step where
  | begin
  | passOn (triggers : Mask)
  | startInit
  | noteInit
  | noteMoves
  | noteSlider
  | tell (plan : ChannelPlan) (frames : Nat)
  | feed (plan : ChannelPlan) (inputs : List Channel) (frame : Nat)
  /-- Run the program of a number. -/
  | run (caller : Caller) (id : Nat)
  | clearInput
  | beginSerialize (mode : SerializeMode) (data : ByteArray)
  | endSerialize
  | restoreSliders (values : List SliderValue)

/-- The program that a step runs. -/
def Step.program? : Step → Option Nat
  | .run _ id => some id
  | _ => none

/-- The programs that steps run, in order. -/
def Step.programs (steps : List Step) : List Nat :=
  steps.filterMap Step.program?

/-- The step stands neither at the beginning nor at the end of a cycle or of a state. -/
def Step.isInner : Step → Bool
  | .startInit | .noteInit | .noteMoves | .noteSlider | .tell _ _ | .feed _ _ _ | .run _ _ => true
  | _ => false

namespace Effect

variable {σ : Type}

/-- Do a step. -/
def perform (effect : Effect σ) : Step → Effect σ
  | .begin => effect.beginCycle
  | .passOn triggers => (effect.bypass triggers [] [] 0).2
  | .startInit => effect.startInit
  | .noteInit => effect.noteInit
  | .noteMoves => effect.noteMoves
  | .noteSlider => effect.updatePending fun pending => { pending with slider := false }
  | .tell plan frames => effect.tellCycle plan frames
  | .feed plan inputs frame =>
    { effect with store := feedFrame plan inputs frame effect.store }
  | .run caller id => effect.run caller (effect.programOf id)
  | .clearInput => effect.clearInput
  | .beginSerialize mode data => effect.beginSerialize mode data
  | .endSerialize => effect.endSerialize.2
  | .restoreSliders values =>
    { effect with
      store := writeSliders (defaultSliders effect.store effect.header) effect.header
        values }.updatePending fun pending => { pending with slider := true }

/-- Do steps one after another. -/
def performAll (effect : Effect σ) (steps : List Step) : Effect σ :=
  steps.foldl perform effect

@[simp] theorem performAll_nil (effect : Effect σ) : effect.performAll [] = effect :=
  rfl

@[simp] theorem performAll_cons (effect : Effect σ) (step : Step) (others : List Step) :
    effect.performAll (step :: others) = (effect.perform step).performAll others :=
  rfl

@[simp] theorem performAll_append (effect : Effect σ) (first second : List Step) :
    effect.performAll (first ++ second) = (effect.performAll first).performAll second :=
  List.foldl_append

/-! ## The steps of cycles and states -/

/-- Run the section of a kind, if it is compiled. -/
def sectionSteps (effect : Effect σ) (caller : Caller) (kind : SectionKind) : List Step :=
  (effect.programId? kind).toList.map (Step.run caller)

/-- Run the init sections, if they are due. -/
def dueInitSteps (effect : Effect σ) : List Step :=
  if effect.rig.pending.init && effect.hasInfo then
    .startInit :: effect.initIds.map (Step.run cycleCaller) ++ [.noteInit]
  else []

/-- The slider section is due, be it because init sections are. -/
def sliderIsDue (effect : Effect σ) : Bool :=
  effect.rig.pending.slider || effect.rig.pending.sliderMoved ||
    effect.rig.pending.init && effect.hasInfo

/-- Run the sample section for each frame, if it is compiled. -/
def frameSteps (effect : Effect σ) (plan : ChannelPlan) (inputs : List Channel)
    (frames : Nat) : List Step :=
  (List.range frames).flatMap fun frame =>
    (effect.programId? .sample).toList.flatMap fun id =>
      [.feed plan inputs frame, .run cycleCaller id]

/-- What comes in front of the frames of a block. -/
def openingSteps (effect : Effect σ) (plan : ChannelPlan) (frames : Nat) : List Step :=
  [.tell plan frames] ++
    (if effect.sliderIsDue then effect.sectionSteps cycleCaller .slider else []) ++
    [.noteSlider] ++ effect.sectionSteps cycleCaller .block

/-- What follows the init sections in a cycle. -/
def blockSteps (effect : Effect σ) (inputs outputs : List Channel) (frames : Nat) :
    List Step :=
  let plan := ChannelPlan.of effect.header inputs outputs
  [.tell plan frames] ++
    (if effect.sliderIsDue then effect.sectionSteps cycleCaller .slider else []) ++
    [.noteSlider] ++ effect.sectionSteps cycleCaller .block ++
    effect.frameSteps plan inputs frames ++ [.clearInput]

/-- The steps of a cycle. -/
def cycleSteps (effect : Effect σ) (inputs outputs : List Channel) (frames : Nat) :
    List Step :=
  if !effect.isCompiled then [.begin, .clearInput]
  else if effect.rig.drawing.isBusy then [.begin, .passOn effect.rig.pending.triggers]
  else
    .begin :: effect.dueInitSteps ++ [.noteMoves] ++
      (if effect.hasInfo then effect.blockSteps inputs outputs frames else [])

/-- The steps in which the serialize section runs. -/
def serializeSteps (effect : Effect σ) (mode : SerializeMode) (data : ByteArray) :
    List Step :=
  .beginSerialize mode data ::
    (if (effect.programId? .serialize).isSome then
      effect.dueInitSteps ++
        (if effect.hasInfo then effect.sectionSteps serializeCaller .serialize else [])
    else []) ++ [.endSerialize]

/-- The steps in which a state is saved. -/
def saveSteps (effect : Effect σ) : List Step :=
  if effect.isCompiled then effect.serializeSteps .writing ByteArray.empty else []

/-- The steps in which a state is restored. -/
def loadSteps (effect : Effect σ) (state : EffectState) : List Step :=
  if effect.isCompiled && effect.hasInfo then
    .restoreSliders state.sliders :: effect.serializeSteps .reading state.data
  else []

/-! ## What holds of all steps -/

section AllSteps

variable {holds : Step → Prop}

theorem forall_runs {caller : Caller} (run : ∀ id, holds (.run caller id)) (ids : List Nat) :
    ∀ step ∈ ids.map (Step.run caller), holds step :=
  List.forall_mem_map.mpr fun id _ => run id

theorem forall_dueInitSteps (effect : Effect σ)
    (quiet : ∀ step : Step, step.isInner = true → step.program? = none → holds step)
    (run : ∀ id, holds (.run cycleCaller id)) : ∀ step ∈ effect.dueInitSteps, holds step := by
  rw [dueInitSteps]
  split
  · simp only [List.cons_append, List.forall_mem_cons, List.forall_mem_append]
    exact ⟨quiet _ rfl rfl, forall_runs run effect.initIds, quiet _ rfl rfl,
      List.forall_mem_nil _⟩
  · exact List.forall_mem_nil _

/-- Only inner steps come in front of the end of a block. -/
theorem forall_innerSteps (effect : Effect σ) (plan : ChannelPlan) (inputs : List Channel)
    (frames : Nat)
    (quiet : ∀ step : Step, step.isInner = true → step.program? = none → holds step)
    (run : ∀ id, holds (.run cycleCaller id)) :
    ∀ step ∈ effect.openingSteps plan frames ++ effect.frameSteps plan inputs frames,
      holds step := by
  have slider : ∀ step ∈ (if effect.sliderIsDue then effect.sectionSteps cycleCaller .slider
      else []), holds step := by
    split
    · exact forall_runs run _
    · exact List.forall_mem_nil _
  have rows : ∀ step ∈ effect.frameSteps plan inputs frames, holds step := by
    intro step member
    simp only [frameSteps, List.mem_flatMap, List.mem_cons, List.not_mem_nil, or_false] at member
    rcases member with ⟨_, _, _, _, rfl | rfl⟩
    · exact quiet _ rfl rfl
    · exact run _
  simp only [openingSteps, List.forall_mem_append, List.forall_mem_singleton]
  exact ⟨⟨⟨⟨quiet _ rfl rfl, slider⟩, quiet _ rfl rfl⟩, forall_runs run _⟩, rows⟩

/-- What holds of the ends of cycles and of inner steps holds of all steps of a cycle. -/
theorem forall_cycleSteps (effect : Effect σ) (inputs outputs : List Channel) (frames : Nat)
    (begin : holds .begin) (passOn : ∀ triggers, holds (.passOn triggers))
    (clear : holds .clearInput)
    (quiet : ∀ step : Step, step.isInner = true → step.program? = none → holds step)
    (run : ∀ id, holds (.run cycleCaller id)) :
    ∀ step ∈ effect.cycleSteps inputs outputs frames, holds step := by
  rw [cycleSteps]
  split
  · exact List.forall_mem_cons.mpr ⟨begin, List.forall_mem_singleton.mpr clear⟩
  · split
    · exact List.forall_mem_cons.mpr ⟨begin, List.forall_mem_singleton.mpr (passOn _)⟩
    · simp only [List.cons_append, List.forall_mem_cons, List.forall_mem_append]
      refine ⟨begin, ⟨effect.forall_dueInitSteps quiet run, quiet _ rfl rfl,
        List.forall_mem_nil _⟩, ?_⟩
      split
      · exact List.forall_mem_append.mpr ⟨effect.forall_innerSteps _ inputs frames quiet run,
          List.forall_mem_singleton.mpr clear⟩
      · exact List.forall_mem_nil _

/-- What holds of the ends and of inner steps holds of all steps in which the serialize section
runs. -/
theorem forall_serializeSteps (effect : Effect σ) (mode : SerializeMode) (data : ByteArray)
    (begin : holds (.beginSerialize mode data)) (ended : holds .endSerialize)
    (quiet : ∀ step : Step, step.isInner = true → step.program? = none → holds step)
    (run : ∀ id, holds (.run cycleCaller id))
    (serialize : ∀ id, holds (.run serializeCaller id)) :
    ∀ step ∈ effect.serializeSteps mode data, holds step := by
  simp only [serializeSteps, List.cons_append, List.forall_mem_cons, List.forall_mem_append]
  refine ⟨begin, ?_, ended, List.forall_mem_nil _⟩
  split
  · refine List.forall_mem_append.mpr ⟨effect.forall_dueInitSteps quiet run, ?_⟩
    split
    · exact forall_runs serialize _
    · exact List.forall_mem_nil _
  · exact List.forall_mem_nil _

end AllSteps

/-! ## Inner steps -/

theorem isInner_dueInitSteps (effect : Effect σ) :
    ∀ step ∈ effect.dueInitSteps, step.isInner = true :=
  effect.forall_dueInitSteps (fun _ inner _ => inner) fun _ => rfl

/-- The input is dropped at the end of a block, behind inner steps. -/
theorem isInner_blockSteps (effect : Effect σ) (inputs outputs : List Channel) (frames : Nat) :
    ∃ inner, effect.blockSteps inputs outputs frames = inner ++ [.clearInput] ∧
      ∀ step ∈ inner, step.isInner = true :=
  ⟨_, rfl, effect.forall_innerSteps (ChannelPlan.of effect.header inputs outputs) inputs frames
    (fun _ inner _ => inner) fun _ => rfl⟩

/-! ## Cycles and states are their steps -/

/-- Running programs one after another leaves the machine with the same programs. -/
theorem performAll_runs (effect : Effect σ) (caller : Caller) (ids : List Nat) :
    effect.performAll (ids.map (Step.run caller)) =
      (ids.map effect.programOf).foldl (fun effect program => effect.run caller program)
        effect := by
  induction ids generalizing effect with
  | nil => rfl
  | cons id others ih => exact ih (effect.run caller (effect.programOf id))

theorem runSection_eq_performAll (effect : Effect σ) (caller : Caller)
    (kind : SectionKind) :
    effect.runSection caller kind = effect.performAll (effect.sectionSteps caller kind) := by
  rw [runSection, program?, sectionSteps]
  cases effect.programId? kind <;> rfl

theorem runDueInit_eq_performAll (effect : Effect σ) :
    effect.runDueInit = effect.performAll effect.dueInitSteps := by
  have programs : effect.startInit.initPrograms =
      effect.initIds.map effect.startInit.programOf := by
    rw [initPrograms, initIds, initIds, rig_startInit]
  rw [runDueInit, runInit, dueInitSteps]
  cases effect.rig.pending.init with
  | false => rfl
  | true =>
      cases effect.hasInfo with
      | false => rfl
      | true =>
          rw [if_pos rfl, if_pos rfl, Bool.true_and, if_pos rfl, runKnownInit,
            runInitPrograms, programs, ← performAll_runs]
          simp [perform]

theorem performAll_frameSteps {effect : Effect σ} {id : Nat}
    (found : effect.programId? .sample = some id) (plan : ChannelPlan) (precision : Precision)
    (inputs : List Channel) (frames : Nat) :
    let ran := runFrames (effect.codeHost cycleCaller) (effect.programOf id) plan precision
      inputs frames (effect.store, effect.around)
    effect.performAll (effect.frameSteps plan inputs frames) =
      { effect with store := ran.2.1, around := ran.2.2 } := by
  -- The rows collected so far do not matter to what the next frame starts from.
  have loop : ∀ (numbers : List Nat) (current : Effect σ) (rows : Array (Array Float)),
      let ran := numbers.foldl (fun state frame =>
        let next := Code.run (current.codeHost cycleCaller) (current.programOf id)
          (feedFrame plan inputs frame state.2.1, state.2.2)
        (state.1.push (outputFrame plan precision next.1), next.1, next.2))
        (rows, current.store, current.around)
      current.performAll (numbers.flatMap fun frame =>
        [.feed plan inputs frame, .run cycleCaller id]) =
        { current with store := ran.2.1, around := ran.2.2 } := by
    intro numbers
    induction numbers with
    | nil => exact fun _ _ => rfl
    | cons frame others ih =>
        intro current rows
        exact ih ((current.perform (.feed plan inputs frame)).perform (.run cycleCaller id)) _
  rw [frameSteps, found]
  simp only [Option.toList_some, List.flatMap_cons, List.flatMap_nil, List.append_nil]
  exact loop (List.range frames) effect #[]

theorem runBlock_eq_performAll (effect : Effect σ) (plan : ChannelPlan)
    (precision : Precision) (inputs outputs : List Channel) (frames : Nat) :
    (effect.runBlock plan precision inputs outputs frames).2 =
      effect.performAll (effect.frameSteps plan inputs frames) := by
  rw [runBlock, program?]
  cases found : effect.programId? .sample with
  | none =>
      have nothing : effect.frameSteps plan inputs frames = [] := by
        simp [frameSteps, found]
      rw [nothing]
      rfl
  | some id => exact (performAll_frameSteps found plan precision inputs frames).symm

theorem runDueSlider_eq_performAll (effect : Effect σ) :
    effect.runDueSlider = effect.performAll
      ((if effect.rig.pending.slider then effect.sectionSteps cycleCaller .slider else []) ++
        [.noteSlider]) := by
  rw [runDueSlider, performAll_append]
  split
  · rw [runSection_eq_performAll]
    rfl
  · rfl

/-- Sections are found by what running code does not reach. -/
theorem sectionSteps_of_rig {first second : Effect σ}
    (sections : first.rig.sections? = second.rig.sections?)
    (program : first.rig.drawing.program? = second.rig.drawing.program?) :
    first.sectionSteps = second.sectionSteps := by
  funext caller kind
  rw [sectionSteps, sectionSteps, programId?, programId?, sections, program]

theorem pending_noteMoves_runDueInit (effect : Effect σ) :
    effect.runDueInit.noteMoves.rig.pending.slider = effect.sliderIsDue := by
  have ran : effect.startInit.runInitPrograms.rig = effect.rig :=
    (rig_runInitPrograms effect.startInit).trans (rig_startInit effect)
  rw [noteMoves, updatePending, runDueInit, runInit, sliderIsDue]
  cases effect.rig.pending.init with
  | false => simp
  | true =>
      cases effect.hasInfo with
      | false => simp
      | true => simp [runKnownInit, noteInit, updatePending, updateDrawing]

/-- A block is begun in its steps up to the frames. -/
theorem beginBlock_eq_performAll (effect : Effect σ) (plan : ChannelPlan) (frames : Nat) :
    let ready := effect.runDueInit.noteMoves
    (ready.tellCycle plan frames).runDueSlider.runSection cycleCaller .block =
      ready.performAll (effect.openingSteps plan frames) := by
  intro ready
  let told := ready.tellCycle plan frames
  have kept : effect.rig.Continues ready.rig :=
    (continues_runDueInit effect).trans (continues_noteMoves _)
  have due : told.rig.pending.slider = effect.sliderIsDue :=
    pending_noteMoves_runDueInit effect
  have behind : told.rig.Continues told.runDueSlider.rig := continues_runDueSlider told
  have sections : told.sectionSteps = effect.sectionSteps :=
    sectionSteps_of_rig kept.sections kept.drawingProgram
  have block : told.runDueSlider.sectionSteps = effect.sectionSteps :=
    sectionSteps_of_rig (behind.sections.trans kept.sections)
      (behind.drawingProgram.trans kept.drawingProgram)
  rw [runSection_eq_performAll, block, runDueSlider_eq_performAll, sections, due]
  simp [openingSteps, perform]

theorem runCycle_eq_performAll (effect : Effect σ) (precision : Precision)
    (inputs outputs : List Channel) (frames : Nat) :
    (effect.runDueInit.noteMoves.runCycle precision inputs outputs frames).2 =
      effect.runDueInit.noteMoves.performAll (effect.blockSteps inputs outputs frames) := by
  let ready := effect.runDueInit.noteMoves
  let plan := ChannelPlan.of effect.header inputs outputs
  let begun := (ready.tellCycle plan frames).runDueSlider.runSection cycleCaller .block
  have kept : effect.rig.Continues ready.rig :=
    (continues_runDueInit effect).trans (continues_noteMoves _)
  have header : ready.header = effect.header := by
    rw [Effect.header, Effect.header, kept.info]
  have later : ready.rig.Continues begun.rig :=
    (continues_runDueSlider (ready.tellCycle plan frames)).trans
      (Rig.Continues.of_eq (rig_runSection _ cycleCaller .block))
  have rows : begun.frameSteps = effect.frameSteps := by
    have same := kept.trans later
    funext plan inputs frames
    rw [frameSteps, frameSteps, programId?, programId?, same.sections, same.drawingProgram]
  have opened : begun = ready.performAll (effect.openingSteps plan frames) :=
    beginBlock_eq_performAll effect plan frames
  rw [runCycle, header, runBlock_eq_performAll]
  change (begun.performAll (begun.frameSteps plan inputs frames)).clearInput =
    ready.performAll (effect.openingSteps plan frames ++ effect.frameSteps plan inputs frames ++
      [.clearInput])
  rw [rows, opened, performAll_append, performAll_append]
  rfl

/-- A cycle of compiled code that finds the machine free goes through all sections. -/
theorem process_of_idle {effect : Effect σ} (compiled : effect.isCompiled = true)
    (informed : effect.hasInfo = true) (idle : effect.rig.drawing.isBusy = false)
    (precision : Precision) (inputs outputs : List Channel) (frames : Nat) :
    effect.process precision inputs outputs frames =
      effect.beginCycle.runDueInit.noteMoves.runCycle precision inputs outputs frames := by
  have begun : effect.beginCycle.isCompiled = true := compiled
  have free : effect.beginCycle.rig.drawing.isBusy = false := idle
  have known : effect.beginCycle.runDueInit.noteMoves.hasInfo = true := by
    rw [hasInfo, (continues_noteMoves _).info, (continues_runDueInit effect.beginCycle).info]
    exact informed
  simp only [process, execute, begun, free, known, Bool.not_true, Bool.false_eq_true,
    if_false, if_true]

/-- A cycle does its steps. -/
theorem process_eq_performAll (effect : Effect σ) (precision : Precision)
    (inputs outputs : List Channel) (frames : Nat) :
    (effect.process precision inputs outputs frames).2 =
      effect.performAll (effect.cycleSteps inputs outputs frames) := by
  let begun := effect.beginCycle
  let ready := begun.runDueInit.noteMoves
  have compiled : begun.isCompiled = effect.isCompiled := rfl
  have busy : begun.rig.drawing.isBusy = effect.rig.drawing.isBusy := rfl
  have informed : ready.hasInfo = effect.hasInfo := by
    rw [hasInfo, hasInfo, (continues_noteMoves _).info, (continues_runDueInit begun).info]
    rfl
  have inits : ready = begun.performAll (effect.dueInitSteps ++ [.noteMoves]) := by
    rw [performAll_append]
    exact congrArg noteMoves (runDueInit_eq_performAll begun)
  rw [process, cycleSteps]
  simp only [compiled, busy, begun]
  split
  · rfl
  · split
    · rfl
    · rw [execute]
      change (if ready.hasInfo then ready.runCycle precision inputs outputs frames
        else (outputs, ready)).2 = _
      rw [informed]
      split
      · rw [runCycle_eq_performAll, performAll_append, List.cons_append, performAll_cons]
        exact congrArg (performAll · (begun.blockSteps inputs outputs frames)) inits
      · rw [List.append_nil, List.cons_append, performAll_cons]
        exact inits

/-- The serialize section runs in all steps but the last, which makes the serializer idle. -/
theorem runSerialize_eq_performAll (effect : Effect σ) (mode : SerializeMode)
    (data : ByteArray) :
    (effect.beginSerialize mode data).runSerialize =
      effect.performAll (effect.serializeSteps mode data).dropLast := by
  let begun := effect.beginSerialize mode data
  have kept : begun.rig.Continues begun.runDueInit.rig := continues_runDueInit begun
  have informed : begun.runDueInit.hasInfo = effect.hasInfo := by
    rw [hasInfo, hasInfo, kept.info]
    rfl
  have sections : begun.runDueInit.sectionSteps = effect.sectionSteps :=
    sectionSteps_of_rig kept.sections kept.drawingProgram
  have serializer : begun.programId? .serialize = effect.programId? .serialize := rfl
  have ran : begun.runSerialize = begun.performAll
      (if (effect.programId? .serialize).isSome then
        effect.dueInitSteps ++
          (if effect.hasInfo then effect.sectionSteps serializeCaller .serialize else [])
      else []) := by
    rw [runSerialize, serializer]
    split
    · dsimp only
      rw [informed, performAll_append, ← sections]
      have inits : begun.performAll effect.dueInitSteps = begun.runDueInit :=
        (runDueInit_eq_performAll begun).symm
      rw [inits]
      split
      · exact runSection_eq_performAll _ _ _
      · rfl
    · rfl
  rw [serializeSteps, List.dropLast_concat]
  exact ran

theorem serialize_eq_performAll (effect : Effect σ) (mode : SerializeMode)
    (data : ByteArray) :
    (effect.serialize mode data).2 = effect.performAll (effect.serializeSteps mode data) := by
  have ran := runSerialize_eq_performAll effect mode data
  rw [serializeSteps, List.dropLast_concat] at ran
  rw [serialize, serializeSteps, performAll_append, ran]
  rfl

/-- Saving a state does its steps. -/
theorem saveState_eq_performAll (effect : Effect σ) :
    effect.saveState.2 = effect.performAll effect.saveSteps := by
  rw [saveState, saveSteps]
  split
  · rw [← serialize_eq_performAll]
    dsimp only
    split <;> rfl
  · rfl

/-- Restoring a state does its steps. -/
theorem loadState_eq_performAll (effect : Effect σ) (state : EffectState) :
    (effect.loadState state).2 = effect.performAll (effect.loadSteps state) := by
  rw [loadState, loadSteps]
  split
  · exact serialize_eq_performAll (effect.perform (.restoreSliders state.sliders)) _ _
  · rfl

/-! ## Which programs run -/

@[simp] theorem programs_nil : Step.programs [] = [] :=
  rfl

@[simp] theorem programs_cons (step : Step) (others : List Step) :
    Step.programs (step :: others) = step.program?.toList ++ Step.programs others := by
  rw [Step.programs, List.filterMap_cons]
  cases step.program? <;> rfl

@[simp] theorem programs_append (first second : List Step) :
    Step.programs (first ++ second) = Step.programs first ++ Step.programs second :=
  List.filterMap_append

@[simp] theorem programs_run (caller : Caller) (ids : List Nat) :
    Step.programs (ids.map (Step.run caller)) = ids := by
  induction ids with
  | nil => rfl
  | cons id others ih => exact congrArg (id :: ·) ih

theorem programs_sectionSteps (effect : Effect σ) (caller : Caller) (kind : SectionKind) :
    Step.programs (effect.sectionSteps caller kind) = (effect.programId? kind).toList :=
  programs_run caller _

/-- The init programs run if they are due and the script is known. -/
theorem programs_dueInitSteps (effect : Effect σ) :
    Step.programs effect.dueInitSteps =
      if effect.rig.pending.init && effect.hasInfo then effect.initIds else [] := by
  rw [dueInitSteps]
  split
  · simp [Step.program?]
  · rfl

theorem programs_frameSteps (effect : Effect σ) (plan : ChannelPlan) (inputs : List Channel)
    (frames : Nat) :
    Step.programs (effect.frameSteps plan inputs frames) =
      (List.replicate frames (effect.programId? .sample).toList).flatten := by
  rw [frameSteps]
  induction frames with
  | zero => rfl
  | succ frames ih =>
      rw [List.range_succ, List.flatMap_append, programs_append, ih, List.replicate_succ',
        List.flatten_append]
      cases effect.programId? .sample <;> rfl

/-- The programs of a cycle that finds the machine free. -/
theorem programs_cycleSteps_of_idle {effect : Effect σ} (compiled : effect.isCompiled = true)
    (informed : effect.hasInfo = true) (idle : effect.rig.drawing.isBusy = false)
    (inputs outputs : List Channel) (frames : Nat) :
    Step.programs (effect.cycleSteps inputs outputs frames) =
      (if effect.rig.pending.init then effect.initIds else []) ++
      (if effect.sliderIsDue then (effect.programId? .slider).toList else []) ++
      (effect.programId? .block).toList ++
      (List.replicate frames (effect.programId? .sample).toList).flatten := by
  have slider : Step.programs (if effect.sliderIsDue then
      effect.sectionSteps cycleCaller .slider else []) =
      if effect.sliderIsDue then (effect.programId? .slider).toList else [] := by
    split
    · exact programs_sectionSteps effect cycleCaller .slider
    · rfl
  simp only [cycleSteps, compiled, informed, idle, Bool.not_true, Bool.false_eq_true, if_false,
    if_true, blockSteps, programs_append, programs_cons, programs_nil, Step.program?,
    Option.toList_none, List.nil_append, List.append_nil, programs_dueInitSteps, slider,
    programs_sectionSteps, programs_frameSteps, Bool.and_true, List.append_assoc]

/-- The programs in which a state is saved or restored. -/
theorem programs_serializeSteps {effect : Effect σ} (informed : effect.hasInfo = true)
    (mode : SerializeMode) (data : ByteArray) :
    Step.programs (effect.serializeSteps mode data) =
      (if (effect.programId? .serialize).isSome && effect.rig.pending.init then effect.initIds
        else []) ++ (effect.programId? .serialize).toList := by
  cases found : effect.programId? .serialize with
  | none => simp [serializeSteps, found, Step.program?]
  | some id =>
      simp [serializeSteps, found, informed, Step.program?, programs_dueInitSteps,
        programs_sectionSteps]

end Effect
end EffectHost

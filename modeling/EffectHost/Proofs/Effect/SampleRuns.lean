import EffectHost.Proofs.Effect.Fills
import EffectHost.Proofs.Effect.HostNames
import EffectHost.Proofs.Effect.Pins
import EffectHost.Proofs.Effect.Slices
import EffectHost.Proofs.Effect.Writes

/-!
# Runs of the sample section

In a cycle that runs, the sample section runs once for each frame.  It finds the samples of the
frame in the variables of the declared input channels and, in those of all others, what code
has left there; and what it leaves in the variables of the declared output channels becomes the
output of the frame.
-/

namespace EffectHost
namespace Effect

open Rig

variable {σ : Type} {painter : Painter σ} {config : Config}

/-! ## One number for each program -/

theorem nodup_heldPrograms_of_not_isCompiled {effect : Effect σ}
    (absent : effect.rig.sections? = none) : effect.heldPrograms.Nodup := by
  have drawing : effect.heldPrograms = effect.rig.drawing.program?.toList := by
    simp [heldPrograms, initIds, programId?, absent]
  rw [drawing]
  cases effect.rig.drawing.program? with
  | none => exact List.nodup_nil
  | some id => exact List.nodup_singleton id

theorem nodup_heldPrograms_compile (effect : Effect σ) (options : CompileOptions) :
    (effect.compile options).effect.heldPrograms.Nodup := by
  rw [compile]
  split
  · next script info _ _ =>
      split
      · next sections machine compiled =>
          rcases CompiledSections.compile_ok compiled with ⟨run, kinds⟩
          have few : ∀ kind : SectionKind, kind ≠ .init →
              (sections.programs.map Prod.fst).count kind ≤ 1 := by
            intro kind notInit
            rw [kinds]
            exact LoadedScript.count_kinds_le script options notInit
          exact (heldPrograms_installCode _ few).nodup_iff.mpr run.nodup
      · exact nodup_heldPrograms_of_not_isCompiled rfl
  · exact nodup_heldPrograms_of_not_isCompiled rfl

/-- Wherever an effect has been led, it holds no program twice. -/
theorem Reached.once {effect : Effect σ} (reached : Reached painter config effect) :
    effect.heldPrograms.Nodup := by
  induction reached with
  | new disk => exact nodup_heldPrograms_of_not_isCompiled rfl
  | load before path ignoreImports ih =>
      apply nodup_heldPrograms_of_not_isCompiled
      rw [Effect.load]
      split <;> rfl
  | compile before options ih => exact nodup_heldPrograms_compile _ options
  | unloadCode before ih | unload before ih => exact nodup_heldPrograms_of_not_isCompiled rfl
  | @moment effect before next ih =>
      have keeps := keepsCode_moment painter effect next
      rw [heldPrograms, initIds_of_keepsCode keeps, programId?_of_keepsCode keeps,
        keeps.drawingProgram]
      exact ih

/-! ## Where the sample section stands in a cycle -/

/-- Feed some frames and run the program of a number for each. -/
def rowSteps (plan : ChannelPlan) (inputs : List Channel) (id : Nat) (frames : List Nat) :
    List Step :=
  frames.flatMap fun frame => [.feed plan inputs frame, .run cycleCaller id]

/-- The steps of a cycle in front of its frames. -/
def leadSteps (effect : Effect σ) (plan : ChannelPlan) (frames : Nat) : List Step :=
  .begin :: effect.dueInitSteps ++ [.noteMoves] ++ effect.openingSteps plan frames

theorem isCompiled_of_programId? {effect : Effect σ} {id : Nat}
    (found : effect.programId? .sample = some id) : effect.isCompiled = true := by
  rw [programId?, if_neg (by decide)] at found
  rcases Option.bind_eq_some_iff.mp found with ⟨sections, known, _⟩
  rw [isCompiled, known]
  rfl

theorem frameSteps_eq {effect : Effect σ} {id : Nat} (found : effect.programId? .sample = some id)
    (plan : ChannelPlan) (inputs : List Channel) (frames : Nat) :
    effect.frameSteps plan inputs frames = rowSteps plan inputs id (List.range frames) := by
  simp [frameSteps, rowSteps, found]

theorem programs_rowSteps (plan : ChannelPlan) (inputs : List Channel) (id : Nat)
    (frames : List Nat) :
    Step.programs (rowSteps plan inputs id frames) = List.replicate frames.length id := by
  induction frames with
  | nil => rfl
  | cons frame others ih =>
      rw [rowSteps, List.flatMap_cons, programs_append, ← rowSteps, ih]
      rfl

/-- Where the program stands in the rows, the frames in front of it are done and its own frame
has been fed. -/
theorem exists_of_rowSteps_eq {plan : ChannelPlan} {inputs : List Channel} {id : Nat}
    {caller : Caller} {frames : List Nat} {before behind : List Step}
    (split : rowSteps plan inputs id frames ++ [.clearInput] = before ++ .run caller id :: behind) :
    ∃ early frame late, frames = early ++ frame :: late ∧ caller = cycleCaller ∧
      before = rowSteps plan inputs id early ++ [.feed plan inputs frame] := by
  induction frames generalizing before with
  | nil =>
      cases before with
      | nil => cases split
      | cons step others => cases others <;> cases split
  | cons frame frames ih =>
      cases before with
      | nil => cases split
      | cons step others =>
          cases others with
          | nil =>
              cases split
              exact ⟨[], frame, frames, rfl, rfl, rfl⟩
          | cons next others =>
              injection split with fed rest
              injection rest with ran rest
              rcases ih rest with ⟨early, own, late, rfl, called, rfl⟩
              rw [← fed, ← ran]
              exact ⟨frame :: early, own, late, rfl, called, rfl⟩

section Cycle

variable {effect : Effect σ} {id : Nat} {inputs outputs : List Channel} {frames : Nat}

theorem cycleSteps_of_idle (compiled : effect.isCompiled = true)
    (informed : effect.hasInfo = true) (idle : effect.rig.drawing.isBusy = false) :
    let plan := ChannelPlan.of effect.header inputs outputs
    effect.cycleSteps inputs outputs frames =
      effect.leadSteps plan frames ++ effect.frameSteps plan inputs frames ++ [.clearInput] := by
  simp [cycleSteps, compiled, informed, idle, leadSteps, blockSteps, openingSteps]

/-- No other section has the number of the sample section. -/
theorem not_mem_programs_leadSteps (once : effect.heldPrograms.Nodup)
    (found : effect.programId? .sample = some id) (plan : ChannelPlan) (frames : Nat) :
    id ∉ Step.programs (effect.leadSteps plan frames) := by
  let front := effect.initIds ++ (effect.programId? .slider).toList ++
    (effect.programId? .block).toList
  have parts : effect.heldPrograms = front ++
      id :: ((effect.programId? .serialize).toList ++ effect.rig.drawing.program?.toList) := by
    simp [front, heldPrograms, found]
  rw [parts, List.nodup_middle, List.nodup_cons] at once
  have absent : id ∉ front := fun member => once.1 (List.mem_append_left _ member)
  have lead : Step.programs (effect.leadSteps plan frames) ⊆ front := by
    have slider : Step.programs (if effect.sliderIsDue then
        effect.sectionSteps cycleCaller .slider else []) ⊆ (effect.programId? .slider).toList := by
      split
      · rw [programs_sectionSteps]
        exact List.Subset.refl _
      · exact List.nil_subset _
    have init : Step.programs effect.dueInitSteps ⊆ effect.initIds := by
      rw [programs_dueInitSteps]
      split
      · exact List.Subset.refl _
      · exact List.nil_subset _
    intro other member
    simp only [leadSteps, openingSteps, programs_append, programs_cons, programs_nil,
      Step.program?, Option.toList_none, List.nil_append, List.append_nil, programs_sectionSteps,
      List.mem_append] at member
    simp only [front, List.mem_append]
    rcases member with due | slid | block
    · exact .inl (.inl (init due))
    · exact .inl (.inr (slider slid))
    · exact .inr block
  exact fun member => absent (lead member)

/-- Where the sample section runs, all of the cycle up to its frame is done. -/
theorem exists_of_cycleSteps_eq (informed : effect.hasInfo = true)
    (idle : effect.rig.drawing.isBusy = false) (once : effect.heldPrograms.Nodup)
    (found : effect.programId? .sample = some id) {before behind : List Step} {caller : Caller}
    (split : effect.cycleSteps inputs outputs frames = before ++ .run caller id :: behind) :
    let plan := ChannelPlan.of effect.header inputs outputs
    ∃ frame < frames, caller = cycleCaller ∧ before = effect.leadSteps plan frames ++
      effect.frameSteps plan inputs frame ++ [.feed plan inputs frame] := by
  intro plan
  have absent := not_mem_programs_leadSteps once found plan frames
  rw [cycleSteps_of_idle (isCompiled_of_programId? found) informed idle, List.append_assoc,
    List.append_eq_append_iff] at split
  have parts : ∃ inner, before = effect.leadSteps plan frames ++ inner ∧
      effect.frameSteps plan inputs frames ++ [.clearInput] =
        inner ++ .run caller id :: behind := by
    rcases split with inner | ⟨rest, lead, run⟩
    · exact inner
    · cases rest with
      | nil => exact ⟨[], by simpa using lead.symm, run.symm⟩
      | cons step rest =>
          injection run with own
          rw [lead, programs_append, programs_cons, ← own] at absent
          exact absurd (List.mem_append_right _ (List.mem_cons_self ..)) absent
  rcases parts with ⟨inner, rfl, rows⟩
  rw [frameSteps_eq found] at rows
  rcases exists_of_rowSteps_eq rows with ⟨early, frame, late, numbers, called, rfl⟩
  rw [List.range_eq_range', List.range'_eq_append_iff] at numbers
  rcases numbers with ⟨count, _, rfl, others⟩
  rw [eq_comm, List.range'_eq_cons_iff, Nat.zero_add, Nat.mul_one] at others
  rcases others with ⟨rfl, more, _⟩
  refine ⟨count, by omega, called, ?_⟩
  rw [frameSteps_eq found, List.range_eq_range', List.append_assoc]

/-- How often the section has run before is the number of the frame. -/
theorem count_programs_frame (once : effect.heldPrograms.Nodup)
    (found : effect.programId? .sample = some id) (plan : ChannelPlan) (inputs : List Channel)
    (frames frame : Nat) : (Step.programs (effect.leadSteps plan frames ++
      effect.frameSteps plan inputs frame ++ [.feed plan inputs frame])).count id = frame := by
  have absent := not_mem_programs_leadSteps once found plan frames
  rw [frameSteps_eq found, programs_append, programs_append, programs_rowSteps,
    List.count_append, List.count_append, List.count_eq_zero_of_not_mem absent,
    List.count_replicate_self, List.length_range, Nat.zero_add]
  rfl

end Cycle

/-! ## What a run finds in the channels -/

theorem mem_take_finRange {size : Nat} (count : Nat) (number : Fin size) :
    number ∈ (List.finRange size).take count ↔ number.val < count := by
  rw [List.mem_take_iff_getElem]
  constructor
  · rintro ⟨place, inside, rfl⟩
    rw [List.getElem_finRange]
    exact Nat.lt_of_lt_of_le inside (Nat.min_le_left _ _)
  · intro early
    exact ⟨number, by simp [early], by simp⟩

/-- Feeding a frame puts the samples of the frame into the declared input channels and leaves
the others. -/
theorem read_feedFrame {store : Store} (hosted : store.Hosted) (plan : ChannelPlan)
    (inputs : List Channel) (frame : Nat) (channel : Fin channelVariables) :
    (feedFrame plan inputs frame store).read (.channel channel) =
      if channel.val < plan.declaredInputs then plan.sampleAt inputs channel frame
      else store.read (.channel channel) := by
  have each : ∀ (channels : List (Fin channelVariables)) (store : Store), store.Hosted →
      (channels.foldl (fun store channel =>
        store.write (.channel channel) (plan.sampleAt inputs channel frame)) store).read
          (.channel channel) =
        if channel ∈ channels then plan.sampleAt inputs channel frame
        else store.read (.channel channel) := by
    intro channels
    induction channels with
    | nil => simp
    | cons first others ih =>
        intro store hosted
        rw [List.foldl_cons, ih _ (hosted.write _ _)]
        by_cases behind : channel ∈ others
        · rw [if_pos behind, if_pos (List.mem_cons_of_mem first behind)]
        · rw [if_neg behind]
          by_cases own : channel = first
          · rw [if_pos (own ▸ List.mem_cons_self ..), ← own, Store.read_write_self hosted]
          · rw [if_neg (by simp [own, behind])]
            apply Store.read_write_of_ne
            exact fun same => own (HostVariable.channel.inj same).symm
  rw [feedFrame, each _ store hosted]
  simp only [mem_take_finRange]

/-! ## Where the samples go -/

/-- The row of a frame is the output of its run, in the state that the frames in front of it
leave. -/
theorem getElem?_runFrames {host : CodeHost Surroundings} {program : Program}
    {plan : ChannelPlan} {precision : Precision} {inputs : List Channel} {frame frames : Nat}
    (early : frame < frames) (state : Store × Surroundings) :
    let ready := (runFrames host program plan precision inputs frame state).2
    (runFrames host program plan precision inputs frames state).1[frame]? =
      some (outputFrame plan precision
        (Code.run host program (feedFrame plan inputs frame ready.1, ready.2)).1) := by
  intro ready
  have parts : List.range frames = List.range frame ++
      frame :: (List.range frames).drop (frame + 1) := by
    have inside : frame < (List.range frames).length := by rwa [List.length_range]
    have cut := (List.take_append_drop frame (List.range frames)).symm
    rwa [List.take_range, Nat.min_eq_left (Nat.le_of_lt early),
      List.drop_eq_getElem_cons inside, List.getElem_range] at cut
  have size : (runSomeFrames host program plan precision inputs (List.range frame) state).1.size =
      frame := by
    rw [size_runSomeFrames, List.length_range]
  rw [runFrames_eq_runSomeFrames, parts, runSomeFrames_append, Array.getElem?_append_right
    (Nat.le_of_eq size), size, Nat.sub_self, runSomeFrames, List.foldl_cons, foldl_runFrame,
    runFrame]
  simp [ready, runFrames_eq_runSomeFrames]

/-- The rows that the sample section leaves in a cycle that runs. -/
def sampleRows (effect : Effect σ) (plan : ChannelPlan) (id : Nat) (precision : Precision)
    (inputs : List Channel) (frames : Nat) : Array (Array Float) :=
  let begun := effect.performAll (effect.leadSteps plan frames)
  (runFrames (begun.codeHost cycleCaller) (begun.programOf id) plan precision inputs frames
    (begun.store, begun.around)).1

section Rows

variable {effect : Effect σ} {plan : ChannelPlan} {id : Nat} {precision : Precision}
  {inputs : List Channel} {frames : Nat}

theorem size_sampleRows : (effect.sampleRows plan id precision inputs frames).size = frames := by
  rw [sampleRows, runFrames_eq_runSomeFrames, size_runSomeFrames, List.length_range]

/-- The row of a frame is what its run leaves, behind all of the cycle that comes first. -/
theorem getElem?_sampleRows (found : effect.programId? .sample = some id) {frame : Nat}
    (early : frame < frames) :
    let fed := effect.performAll (effect.leadSteps plan frames ++
      effect.frameSteps plan inputs frame ++ [.feed plan inputs frame])
    (effect.sampleRows plan id precision inputs frames)[frame]? =
      some (outputFrame plan precision (fed.perform (.run cycleCaller id)).store) := by
  intro fed
  let begun := effect.performAll (effect.leadSteps plan frames)
  have keeps := keepsCode_performAll effect (effect.leadSteps plan frames)
  have still : begun.frameSteps = effect.frameSteps := by
    funext plan inputs frames
    rw [frameSteps, frameSteps, programId?_of_keepsCode keeps]
  have foundBegun : begun.programId? .sample = some id := by
    rw [programId?_of_keepsCode keeps, found]
  have rows := performAll_frameSteps foundBegun plan precision inputs frame
  rw [still] at rows
  have fedLast : fed = (begun.performAll (effect.frameSteps plan inputs frame)).perform
      (.feed plan inputs frame) := by
    simp only [fed, performAll_append]
    rfl
  rw [sampleRows, getElem?_runFrames early, fedLast, rows]
  rfl

/-- A row has a sample for each channel that is told, as each of them has a variable. -/
theorem size_row_sampleRows (pinned : plan.outputs ≤ channelVariables) {frame : Nat}
    {row : Array Float}
    (known : (effect.sampleRows plan id precision inputs frames)[frame]? = some row) :
    row.size = plan.outputs := by
  have early : frame < frames := by
    have inside := (Array.getElem?_eq_some_iff.mp known).1
    rwa [size_sampleRows] at inside
  rw [sampleRows, getElem?_runFrames early] at known
  rw [← Option.some.inj known]
  simpa [outputFrame] using pinned

end Rows

section Cycle

variable {effect : Effect σ} {id : Nat}

/-- The output of a cycle that runs is that of its block, behind all that is done in front of
the frames. -/
theorem process_fst_of_idle (compiled : effect.isCompiled = true)
    (informed : effect.hasInfo = true) (idle : effect.rig.drawing.isBusy = false)
    (precision : Precision) (inputs outputs : List Channel) (frames : Nat) :
    let plan := ChannelPlan.of effect.header inputs outputs
    (effect.process precision inputs outputs frames).1 =
      ((effect.performAll (effect.leadSteps plan frames)).runBlock plan precision inputs outputs
        frames).1 := by
  intro plan
  let ready := effect.beginCycle.runDueInit.noteMoves
  have kept : effect.beginCycle.rig.Continues ready.rig :=
    (continues_runDueInit effect.beginCycle).trans (continues_noteMoves _)
  have header : ready.header = effect.header := by
    rw [Effect.header, kept.info]
    rfl
  have readied : effect.performAll (.begin :: effect.dueInitSteps ++ [.noteMoves]) = ready := by
    rw [List.cons_append, performAll_cons, performAll_append]
    exact congrArg noteMoves (runDueInit_eq_performAll effect.beginCycle).symm
  have lead : effect.performAll (effect.leadSteps plan frames) =
      (ready.tellCycle plan frames).runDueSlider.runSection cycleCaller .block := by
    rw [beginBlock_eq_performAll effect.beginCycle plan frames]
    change effect.performAll ((.begin :: effect.dueInitSteps ++ [.noteMoves]) ++
      effect.openingSteps plan frames) = ready.performAll (effect.openingSteps plan frames)
    rw [performAll_append, readied]
  rw [process_of_idle compiled informed idle, runCycle, header, lead]

theorem process_fst_of_sample (informed : effect.hasInfo = true)
    (idle : effect.rig.drawing.isBusy = false) (found : effect.programId? .sample = some id)
    (precision : Precision) (inputs outputs : List Channel) (frames : Nat) :
    let plan := ChannelPlan.of effect.header inputs outputs
    (effect.process precision inputs outputs frames).1 =
      (Fill.deliver plan (effect.sampleRows plan id precision inputs frames)).applyTo outputs := by
  intro plan
  let begun := effect.performAll (effect.leadSteps plan frames)
  have program : begun.program? .sample = some (begun.programOf id) := by
    rw [program?, programId?_of_keepsCode (keepsCode_performAll effect _), found]
    rfl
  rw [process_fst_of_idle (isCompiled_of_programId? found) informed idle, runBlock, program]
  exact Fill.collect_eq ..

end Cycle

theorem getElem?_outputFrame {plan : ChannelPlan} {channel : Fin channelVariables}
    (within : channel.val < plan.outputs) (precision : Precision) (store : Store) :
    (outputFrame plan precision store)[channel.val]? =
      some (precision.round (store.read (.channel channel))) := by
  simp [outputFrame, within]

/-! ## Every run -/

/-- What a run of the program of number `id` finds in the channel variables behind the steps
`before` of a cycle, and where it goes what the run leaves in them.  The number of the frame is
how often the program has run before. -/
structure SampleRun (effect : Effect σ) (precision : Precision)
    (inputs outputs results : List Channel) (caller : Caller) (id : Nat) (before : List Step) :
    Prop where
  /-- Channels that are declared and provided hold the sample of the frame, and silence past
  the end of what is provided. -/
  provided : ∀ channel : Fin channelVariables,
    channel.val < min inputs.length effect.header.inPins.count →
      (effect.performAll before).store.read (.channel channel) =
        (inputs.getD channel #[]).getD ((Step.programs before).count id) 0.0
  /-- Channels that are declared only are silent. -/
  missing : ∀ channel : Fin channelVariables,
    min inputs.length effect.header.inPins.count ≤ channel.val →
      channel.val < effect.header.inPins.count →
        (effect.performAll before).store.read (.channel channel) = 0.0
  /-- All others hold what they held when code ran last. -/
  undeclared : ∀ channel : Fin channelVariables, effect.header.inPins.count ≤ channel.val →
    ∀ earlier between, before = earlier ++ between → Step.programs between = [] →
      (effect.performAll before).store.read (.channel channel) =
        (effect.performAll earlier).store.read (.channel channel)
  /-- What the run leaves becomes the sample of the output, where that is long enough. -/
  delivered : ∀ channel : Fin channelVariables,
    channel.val < min outputs.length effect.header.outPins.count →
      ∀ result, results[channel.val]? = some result →
        (Step.programs before).count id < result.size →
          result[(Step.programs before).count id]? = some (precision.round
            (((effect.performAll before).perform (.run caller id)).store.read (.channel channel)))

/-- The host writes to a channel only where it feeds a frame. -/
theorem exists_feed_of_mem_writes {step : Step} {channel : Fin channelVariables}
    (member : .channel channel ∈ step.writes) : ∃ plan inputs frame,
      step = .feed plan inputs frame ∧ channel.val < plan.declaredInputs := by
  cases step with
  | feed plan inputs frame =>
      rcases List.mem_map.mp member with ⟨other, listed, same⟩
      rw [HostVariable.channel.inj same, mem_take_finRange] at listed
      exact ⟨plan, inputs, frame, rfl, listed⟩
  | _ => simp [Step.writes] at member

theorem feed_not_mem_leadSteps (effect : Effect σ) (plan : ChannelPlan) (frames : Nat)
    (fed : ChannelPlan) (inputs : List Channel) (frame : Nat) :
    .feed fed inputs frame ∉ effect.leadSteps plan frames := by
  have due : Step.feed fed inputs frame ∉ effect.dueInitSteps := by
    rw [dueInitSteps]
    split <;> simp
  simp [leadSteps, openingSteps, sectionSteps, due]

section Cycle

variable {effect : Effect σ} {id : Nat} {inputs outputs : List Channel} {frame frames : Nat}

/-- Frames are fed by the plan of the cycle. -/
theorem plan_of_mem_steps {plan fed : ChannelPlan} {source : List Channel} {number : Nat}
    (member : .feed fed source number ∈ effect.leadSteps plan frames ++
      effect.frameSteps plan inputs frame ++ [.feed plan inputs frame]) : fed = plan := by
  rw [List.mem_append, List.mem_append, List.mem_singleton] at member
  rcases member with (lead | row) | own
  · exact absurd lead (feed_not_mem_leadSteps effect plan frames fed source number)
  · simp only [frameSteps, List.mem_flatMap, List.mem_cons, List.not_mem_nil, or_false] at row
    rcases row with ⟨_, _, _, _, same | other⟩
    · exact (Step.feed.inj same).1
    · cases other
  · exact (Step.feed.inj own).1

/-- What holds of the run for a frame. -/
theorem sampleRun_frame (reached : Reached painter config effect)
    (idle : effect.rig.drawing.isBusy = false) (found : effect.programId? .sample = some id)
    (precision : Precision) (early : frame < frames) :
    let plan := ChannelPlan.of effect.header inputs outputs
    effect.SampleRun precision inputs outputs
      (effect.process precision inputs outputs frames).1 cycleCaller id
      (effect.leadSteps plan frames ++ effect.frameSteps plan inputs frame ++
        [.feed plan inputs frame]) := by
  intro plan
  let begun := effect.performAll (effect.leadSteps plan frames)
  let ready := begun.performAll (effect.frameSteps plan inputs frame)
  have grounded := reached.grounded
  have declared : plan.declaredInputs = effect.header.inPins.count :=
    Nat.min_eq_left reached.pinned.inputs
  have fed : effect.performAll (effect.leadSteps plan frames ++
      effect.frameSteps plan inputs frame ++ [.feed plan inputs frame]) =
        ready.perform (.feed plan inputs frame) := by
    rw [performAll_append, performAll_append]
    rfl
  have count := count_programs_frame reached.once found plan inputs frames frame
  have hosted : ready.store.Hosted := by
    have led : ready = effect.performAll (effect.leadSteps plan frames ++
        effect.frameSteps plan inputs frame) := (performAll_append _ _ _).symm
    rw [led]
    exact (grounded_performAll grounded _).hosted
  have read := read_feedFrame hosted plan inputs frame
  constructor
  · intro channel within
    have inside : channel.val < plan.declaredInputs := by omega
    have provided : channel.val < plan.inputs := within
    rw [count, fed]
    refine (read channel).trans ?_
    rw [if_pos inside, ChannelPlan.sampleAt, if_pos provided]
  · intro channel above inside
    have missing : ¬ channel.val < plan.inputs := Nat.not_lt.mpr above
    rw [fed]
    refine (read channel).trans ?_
    rw [if_pos (declared ▸ inside), ChannelPlan.sampleAt, if_neg missing]
  · intro channel above earlier between parts quiet
    rw [parts, performAll_append]
    refine read_performAll ?_ HostVariable.noConfusion
    intro step member
    apply spares_of_program? (List.filterMap_eq_nil_iff.mp quiet step member)
    intro written
    rcases exists_feed_of_mem_writes written with ⟨own, source, number, rfl, inside⟩
    have known := parts ▸ List.mem_append_right earlier member
    rw [plan_of_mem_steps known] at inside
    omega
  · intro channel within result known inside
    have told : channel.val < plan.outputs := within
    rw [count] at inside ⊢
    rw [process_fst_of_sample (grounded.hasInfo (isCompiled_of_programId? found)) idle found]
      at known
    apply Fill.getElem?_applyTo_of_some _ known inside
    exact (Fill.deliver_of_lt told (getElem?_sampleRows found early)).trans
      (getElem?_outputFrame told precision _)

end Cycle

/-- In a cycle that runs, whatever its channels and its frames are, the sample section runs once
for each frame, each time with the samples of the frame; what it leaves in the channels that are
declared and provided is the output of the frame, and all others are silent. -/
theorem sample_section_runs_per_frame {effect : Effect σ}
    (reached : Reached painter config effect) (idle : effect.rig.drawing.isBusy = false) {id : Nat}
    (found : effect.programId? .sample = some id) (precision : Precision)
    (inputs outputs : List Channel) (frames : Nat) :
    let steps := effect.cycleSteps inputs outputs frames
    let done := effect.process precision inputs outputs frames
    done.2 = effect.performAll steps ∧ (Step.programs steps).count id = frames ∧
    effect.header.Pinned ∧
    (∀ before caller behind, steps = before ++ .run caller id :: behind →
      effect.SampleRun precision inputs outputs done.1 caller id before) ∧
    done.1.map Array.size = outputs.map Array.size ∧
    ∀ channel, min outputs.length effect.header.outPins.count ≤ channel →
      ∀ result, done.1[channel]? = some result → ∀ frame, frame < frames → frame < result.size →
        result[frame]? = some 0.0 := by
  intro steps done
  let plan := ChannelPlan.of effect.header inputs outputs
  have compiled := isCompiled_of_programId? found
  have informed := reached.grounded.hasInfo compiled
  have results := process_fst_of_sample informed idle found precision inputs outputs frames
  refine ⟨process_eq_performAll effect precision inputs outputs frames, ?_, reached.pinned, ?_,
    ?_, ?_⟩
  · have whole := count_programs_frame reached.once found plan inputs frames frames
    rw [programs_append] at whole
    have split : steps = effect.leadSteps plan frames ++ effect.frameSteps plan inputs frames ++
        [.clearInput] := cycleSteps_of_idle compiled informed idle
    rw [split, programs_append]
    exact whole
  · intro before caller behind split
    rcases exists_of_cycleSteps_eq informed idle reached.once found split with
      ⟨frame, early, rfl, rfl⟩
    exact sampleRun_frame reached idle found precision early
  · rw [results, Fill.sizes_applyTo]
  · intro channel silent result known frame early inside
    rw [results] at known
    refine Fill.getElem?_applyTo_of_some (Fill.deliver_of_le silent ?_) known inside
    rwa [size_sampleRows]

/-- With all programs in the table, a last step is done as the table says. -/
theorem perform_of_tells {effect : Effect σ} {base : Nat} {table : List Program}
    (tells : effect.Tells base table) {before : List Step} {last : Step}
    (covers : Covers base table (before ++ [last])) :
    (effect.performAll before).perform last =
      (effect.evaluate base table (before ++ [last])).2 := by
  rw [evaluate_eq tells covers]
  exact (performAll_append effect before [last]).symm

/-- One input of one sample, three outputs and two frames.  The second output has a pin, but no
input of that number is declared, so that what the script leaves there stays from frame to
frame; the third output is silent. -/
theorem sample_section_runs_per_frame_two :
    let painter : Painter Unit :=
      { size := fun _ => (4, 3), scale := fun _ => 1.0, reset := fun surface => surface
        call := fun _ _ effect => (0.0, effect)
        takeDirty := fun surface => (true, surface) }
    let source := "in_pin:in\nout_pin:left\nout_pin:right\n@sample\n" ++
      "spl1 = spl1 + spl0 + 1;\nspl0 = spl0 * 2;\n"
    let disk := Disk.empty.addFile ["script"] source.toUTF8
    let loaded := ((Effect.new disk {} : Effect Unit).load "/script" false).effect
    let effect := (loaded.compile {}).effect
    let inputs : List Channel := [#[0.5]]
    let outputs : List Channel := [#[7.0, 7.0], #[7.0, 7.0, 7.0], #[7.0, 7.0, 7.0]]
    let done := effect.process .single inputs outputs 2
    Reached painter {} effect ∧ effect.rig.drawing.isBusy = false ∧
      effect.programId? .sample = some 1 ∧
        (Step.programs (effect.cycleSteps inputs outputs 2)).count 1 = 2 ∧
          (∃ result, done.1[1]? = some result ∧ result[1]? = some 2.5) ∧
            ∃ result, done.1[2]? = some result ∧ result[1]? = some 0.0 := by
  intro painter source disk loaded effect inputs outputs done
  let told := (loaded.compileKnown {}).effect
  let base := loaded.rig.code.nextProgram
  let table := loaded.knownPrograms {}
  let before (effect : Effect Unit) : List Step :=
    let plan := ChannelPlan.of effect.header inputs outputs
    effect.leadSteps plan 2 ++ effect.frameSteps plan inputs 1 ++ [.feed plan inputs 1]
  let run : Step := .run cycleCaller 1
  have known : loaded.isKnown {} = true ∧ (loaded.compileKnown {}).result.isOk = true := by
    decide +kernel
  have facts : told.rig.drawing.isBusy = false ∧ told.programId? .sample = some 1 ∧
      told.header.outPins.count = 2 ∧ Covers base table (before told ++ [run]) ∧
        Precision.single.round ((told.evaluate base table (before told ++ [run])).2.store.read
          (.channel ⟨1, by decide⟩)) = 2.5 := by
    decide +kernel
  have begun : Reached painter {} loaded := (Reached.new disk).load "/script" false
  have reached : Reached painter {} effect := begun.compile {}
  have equal := compile_eq_compileKnown begun known.1
  have same : effect = told := congrArg Attempt.effect equal
  have tells : effect.Tells base table := by
    apply tells_compile_known begun known.1
    rw [equal]
    exact result_of_isOk known.2
  rw [← same] at facts
  rcases facts with ⟨idle, found, pins, covers, sample⟩
  rcases sample_section_runs_per_frame reached idle found .single inputs outputs 2 with
    ⟨_, count, _, runs, sizes, silent⟩
  have sized : ∀ channel < 3, ∃ result, done.1[channel]? = some result ∧
      (outputs.map Array.size)[channel]? = some result.size := by
    intro channel inside
    have many : channel < done.1.length := by
      rw [← List.length_map Array.size, sizes]
      exact inside
    refine ⟨done.1[channel], List.getElem?_eq_getElem many, ?_⟩
    rw [← sizes, List.getElem?_map, List.getElem?_eq_getElem many]
    rfl
  have split : effect.cycleSteps inputs outputs 2 = before effect ++ run :: [.clearInput] := by
    rw [cycleSteps_of_idle (isCompiled_of_programId? found)
      (reached.grounded.hasInfo (isCompiled_of_programId? found)) idle]
    simp only [before, frameSteps_eq found]
    simp [rowSteps, List.range_succ, run]
  have second := runs (before effect) cycleCaller _ split
  have place : (Step.programs (before effect)).count 1 = 1 :=
    count_programs_frame reached.once found _ inputs 2 1
  refine ⟨reached, idle, found, count, ?_, ?_⟩
  · rcases sized 1 (by decide) with ⟨result, known, size⟩
    have long : result.size = 3 := (Option.some.inj size).symm
    have own := second.delivered ⟨1, by decide⟩ (by rw [pins]; decide) result known
      (by rw [place, long]; decide)
    rw [place, perform_of_tells tells covers] at own
    exact ⟨result, known, own.trans (congrArg some sample)⟩
  · rcases sized 2 (by decide) with ⟨result, known, size⟩
    have long : result.size = 3 := (Option.some.inj size).symm
    exact ⟨result, known, silent 2 (by rw [pins]; decide) result known 1 (by decide)
      (by rw [long]; decide)⟩

end Effect
end EffectHost

import EffectHost.Proofs.Effect.Grounded

/-!
# Due work is done once

What is due for compiled code can be told from what has happened to the effect since it
was compiled.  Init is due from the start, and again when the host changes the block size
or the sample rate or starts playback; the slider section is due after init, and when a
slider is moved or a state is restored.  Work that is due stays due until the code that it
asks for has run, and that code runs at no other time.
-/

namespace EffectHost

/-- The work that is due. -/
@[ext]
structure DueWork where
  init : Bool
  slider : Bool
  /-- The triggers that the next cycle tells. -/
  triggers : Mask
deriving DecidableEq, Repr

namespace DueWork

variable {σ : Type}

/-- When a state is saved or restored, init runs in front of a serialize section. -/
def afterSerialize (due : DueWork) (effect : Effect σ) : DueWork :=
  if (effect.programId? .serialize).isSome && due.init then
    { due with init := false, slider := true }
  else due

/-- What is due after a moment. -/
def after (due : DueWork) (effect : Effect σ) : Moment σ → DueWork
  | .cycle (.process _ _ _ _) =>
    if effect.rig.drawing.isBusy then due else ⟨false, false, Mask.empty⟩
  | .cycle (.setSlider index _) | .cycle (.setSliderFromDrawing index _) =>
    { due with slider := due.slider || decide (index < sliderSlots) }
  | .cycle (.setBlockSize size) =>
    { due with init := due.init || decide (effect.rig.blockSize ≠ size) }
  | .cycle (.setSampleRate rate) =>
    { due with init := due.init || !(effect.rig.sampleRate == rate) }
  | .cycle (.setTime time) =>
    { due with
      init := due.init ||
        effect.rig.time.state.starts time.state && effect.store.read .noInit == 0.0 }
  | .cycle (.sendTrigger index) =>
    if index < Effect.triggerCount then
      { due with triggers := due.triggers.union (Mask.single index) }
    else due
  | .saveState => due.afterSerialize effect
  | .loadState _ => { due with slider := true }.afterSerialize effect
  | _ => due

/-- What is due after moments in a row. -/
def through (painter : Painter σ) : DueWork → Effect σ → List (Moment σ) → DueWork
  | due, _, [] => due
  | due, effect, next :: others =>
    (due.after effect next).through painter (effect.moment painter next) others

end DueWork

namespace Effect

open Rig

variable {σ : Type} {painter : Painter σ} {config : Config}

/-! ## The notes of the rig -/

/-- The work that the rig has noted. -/
def noted (effect : Effect σ) : DueWork where
  init := effect.rig.pending.init
  slider := effect.rig.pending.slider || effect.rig.pending.sliderMoved
  triggers := effect.rig.pending.triggers

theorem noted_of_pending {before after : Effect σ}
    (same : after.rig.pending = before.rig.pending) : after.noted = before.noted := by
  rw [noted, noted, same]

/-- After init ran, only the slider section is due. -/
theorem pending_runDueInit {effect : Effect σ} (informed : effect.hasInfo = true) :
    effect.runDueInit.rig.pending =
      if effect.rig.pending.init then
        { effect.rig.pending with isFresh := false, init := false, slider := true }
      else effect.rig.pending := by
  have ran : effect.startInit.runInitPrograms.rig = effect.rig :=
    (rig_runInitPrograms effect.startInit).trans (rig_startInit effect)
  rw [runDueInit, runInit]
  cases effect.rig.pending.init with
  | false => rfl
  | true => simp [informed, runKnownInit, noteInit, updatePending, updateDrawing, ran]

theorem pending_runDueSlider (effect : Effect σ) :
    effect.runDueSlider.rig.pending = { effect.rig.pending with slider := false } := by
  have ran : (if effect.rig.pending.slider then effect.runSection cycleCaller .slider
      else effect).rig = effect.rig := by
    split
    · exact rig_runSection effect cycleCaller .slider
    · rfl
  rw [runDueSlider, updatePending]
  dsimp only
  rw [ran]

/-- A cycle during a drawing pass takes the triggers and puts them back. -/
theorem process_of_busy {effect : Effect σ} (compiled : effect.isCompiled = true)
    (busy : effect.rig.drawing.isBusy = true) (precision : Precision)
    (inputs outputs : List Channel) (frames : Nat) :
    effect.process precision inputs outputs frames =
      effect.beginCycle.bypass effect.rig.pending.triggers inputs outputs frames := by
  have begun : effect.beginCycle.isCompiled = true := compiled
  have taken : effect.beginCycle.rig.drawing.isBusy = true := busy
  simp only [process, begun, taken, Bool.not_true, Bool.false_eq_true, if_false, if_true]

theorem rig_bypass_beginCycle (effect : Effect σ) (inputs outputs : List Channel)
    (frames : Nat) :
    (effect.beginCycle.bypass effect.rig.pending.triggers inputs outputs frames).2.rig =
      effect.rig := by
  have raised : Mask.empty.union effect.rig.pending.triggers = effect.rig.pending.triggers :=
    Mask.empty_union _
  simp [bypass, beginCycle, updatePending, raised]

/-- A cycle with the machine free leaves nothing due. -/
theorem noted_process_of_idle {effect : Effect σ} (compiled : effect.isCompiled = true)
    (informed : effect.hasInfo = true) (idle : effect.rig.drawing.isBusy = false)
    (precision : Precision) (inputs outputs : List Channel) (frames : Nat) :
    (effect.process precision inputs outputs frames).2.noted =
      ⟨false, false, Mask.empty⟩ := by
  let begun := effect.beginCycle
  let ready := begun.runDueInit.noteMoves
  let plan := ChannelPlan.of ready.header inputs outputs
  let told := ready.tellCycle plan frames
  have sections : (ready.runCycle precision inputs outputs frames).2.rig =
      told.runDueSlider.rig :=
    (rig_runBlock _ plan precision inputs outputs frames).trans
      (rig_runSection told.runDueSlider cycleCaller .block)
  have init : begun.runDueInit.rig.pending.init = false ∧
      begun.runDueInit.rig.pending.triggers = Mask.empty := by
    have known : begun.hasInfo = true := informed
    rw [pending_runDueInit known]
    cases due : begun.rig.pending.init with
    | true => exact ⟨rfl, rfl⟩
    | false => exact ⟨due, rfl⟩
  rw [process_of_idle compiled informed idle, noted, sections, pending_runDueSlider]
  exact DueWork.ext init.1 rfl init.2

/-! ## Notes follow what happens -/

theorem noted_process {effect : Effect σ} (compiled : effect.isCompiled = true)
    (informed : effect.hasInfo = true) (precision : Precision)
    (inputs outputs : List Channel) (frames : Nat) :
    (effect.process precision inputs outputs frames).2.noted =
      if effect.rig.drawing.isBusy then effect.noted else ⟨false, false, Mask.empty⟩ := by
  cases busy : effect.rig.drawing.isBusy with
  | true =>
      apply noted_of_pending
      rw [process_of_busy compiled busy, rig_bypass_beginCycle]
  | false => exact noted_process_of_idle compiled informed busy precision inputs outputs frames

theorem noted_requestInit {effect : Effect σ} (compiled : effect.isCompiled = true) :
    effect.requestInit.noted = { effect.noted with init := true } := by
  rw [requestInit, if_pos compiled]
  rfl

theorem noted_serialize {effect : Effect σ} (informed : effect.hasInfo = true)
    (mode : SerializeMode) (data : ByteArray) :
    (effect.serialize mode data).2.noted = effect.noted.afterSerialize effect := by
  let begun := effect.beginSerialize mode data
  have ended : (effect.serialize mode data).2.rig = begun.runSerialize.rig := rfl
  have known : begun.hasInfo = true := informed
  have serializer : begun.programId? .serialize = effect.programId? .serialize := rfl
  have pending : begun.runDueInit.rig.pending = _ := pending_runDueInit known
  have init : begun.rig.pending.init = effect.noted.init := rfl
  rw [init] at pending
  rw [DueWork.afterSerialize]
  cases found : effect.programId? .serialize with
  | none =>
      apply noted_of_pending
      rw [ended, runSerialize, serializer, found]
      rfl
  | some id =>
      have ran : begun.runSerialize.rig = begun.runDueInit.rig := by
        rw [runSerialize, serializer, found, Option.isSome_some, if_pos rfl]
        dsimp only
        split
        · exact rig_runSection _ _ _
        · rfl
      rw [noted, ended, ran, pending]
      cases effect.noted.init <;> rfl

theorem noted_moveSlider (effect : Effect σ) (index : Nat) (value : Float)
    {note : PendingWork → PendingWork}
    (notes : ∀ pending, (note pending).init = pending.init ∧
      ((note pending).slider || (note pending).sliderMoved) = true ∧
      (note pending).triggers = pending.triggers) :
    (effect.moveSlider index value note).noted =
      { effect.noted with slider := effect.noted.slider || decide (index < sliderSlots) } := by
  rcases notes effect.rig.pending with ⟨init, slider, triggers⟩
  rw [moveSlider]
  split
  · next inside =>
      apply DueWork.ext
      · exact init
      · exact slider.trans (by simp [inside])
      · exact triggers
  · next outside => simp [outside]

theorem noted_setBlockSize {effect : Effect σ} (compiled : effect.isCompiled = true)
    (size : Nat) :
    (effect.setBlockSize size).noted =
      { effect.noted with
        init := effect.noted.init || decide (effect.rig.blockSize ≠ size) } := by
  rw [setBlockSize]
  split
  · next same => simp [same]
  · next different =>
      let changed := { effect with rig := { effect.rig with blockSize := size } }
      have requested : changed.requestInit.noted = { effect.noted with init := true } :=
        noted_requestInit compiled
      simpa [different] using requested

theorem noted_setSampleRate {effect : Effect σ} (compiled : effect.isCompiled = true)
    (rate : Float) :
    (effect.setSampleRate rate).noted =
      { effect.noted with
        init := effect.noted.init || !(effect.rig.sampleRate == rate) } := by
  rw [setSampleRate]
  split
  · next same => simp [same]
  · next different =>
      let changed := { effect with rig := { effect.rig with sampleRate := rate } }
      have requested : changed.requestInit.noted = { effect.noted with init := true } :=
        noted_requestInit compiled
      simpa [different] using requested

theorem noted_setTime {effect : Effect σ} (compiled : effect.isCompiled = true)
    (time : TimeInfo) :
    (effect.setTime time).noted =
      { effect.noted with
        init := effect.noted.init ||
          effect.rig.time.state.starts time.state && effect.store.read .noInit == 0.0 } := by
  have requested : ∀ starts : Bool, (if starts then effect.requestInit else effect).noted =
      { effect.noted with init := effect.noted.init || starts } := by
    intro starts
    cases starts with
    | true =>
        rw [if_pos rfl, Bool.or_true]
        exact noted_requestInit compiled
    | false =>
        rw [if_neg Bool.false_ne_true, Bool.or_false]
  let starts := effect.rig.time.state.starts time.state && effect.store.read .noInit == 0.0
  have same : (effect.setTime time).rig.pending =
      (if starts then effect.requestInit else effect).rig.pending := by
    rw [setTime]
  exact (noted_of_pending same).trans (requested starts)

theorem rig_takeMidi (effect : Effect σ) (next? : MidiLog → Option (MidiEvent × MidiLog)) :
    (effect.takeMidi next?).2.rig = effect.rig := by
  rw [takeMidi]
  split <;> rfl

theorem noted_actInCycle {effect : Effect σ} (compiled : effect.isCompiled = true)
    (informed : effect.hasInfo = true) (action : CycleAction) :
    (effect.actInCycle action).noted = effect.noted.after effect (.cycle action) := by
  cases action with
  | process precision inputs outputs frames =>
      exact noted_process compiled informed precision inputs outputs frames
  | setSlider index value =>
      exact noted_moveSlider effect index value fun _ => ⟨rfl, rfl, rfl⟩
  | setSliderFromDrawing index value =>
      exact noted_moveSlider effect index value fun _ => ⟨rfl, Bool.or_true _, rfl⟩
  | setBlockSize size => exact noted_setBlockSize compiled size
  | setSampleRate rate => exact noted_setSampleRate compiled rate
  | setTime time => exact noted_setTime compiled time
  | fetchChanges | fetchAutomations | sendMidi event => exact noted_of_pending rfl
  | receiveMidi => exact noted_of_pending (congrArg Rig.pending (rig_takeMidi effect _))
  | receiveMidiOnBus bus =>
      exact noted_of_pending (congrArg Rig.pending (rig_takeMidi effect _))
  | sendTrigger index =>
      rw [actInCycle, sendTrigger, DueWork.after]
      split <;> rfl

theorem noted_saveState {effect : Effect σ} (compiled : effect.isCompiled = true)
    (informed : effect.hasInfo = true) :
    effect.saveState.2.noted = effect.noted.afterSerialize effect := by
  have ran := noted_serialize informed .writing ByteArray.empty
  rw [saveState, if_pos compiled]
  dsimp only
  split <;> exact ran

theorem noted_loadState {effect : Effect σ} (compiled : effect.isCompiled = true)
    (informed : effect.hasInfo = true) (state : EffectState) :
    (effect.loadState state).2.noted =
      { effect.noted with slider := true }.afterSerialize effect := by
  let restored := effect.perform (.restoreSliders state.sliders)
  have begun : restored.noted = { effect.noted with slider := true } := rfl
  rw [loadState, compiled, informed, Bool.and_true, if_pos rfl, ← begun]
  exact @noted_serialize σ restored informed .reading state.data

/-- The notes follow every moment. -/
theorem noted_moment {effect : Effect σ} (compiled : effect.isCompiled = true)
    (informed : effect.hasInfo = true) (next : Moment σ) :
    (effect.moment painter next).noted = effect.noted.after effect next := by
  cases next with
  | cycle action => exact noted_actInCycle compiled informed action
  | saveState => exact noted_saveState compiled informed
  | loadState state => exact noted_loadState compiled informed state
  | setKey key pressed =>
      exact noted_of_pending (congrArg Rig.pending (rig_setKey effect key pressed))
  | setMouse modifiers x y buttons wheel sideWheel =>
      exact noted_of_pending
        (congrArg Rig.pending (rig_setMouse effect modifiers x y buttons wheel sideWheel))
  | beginPass surface =>
      apply noted_of_pending
      simp only [moment, setBusy, updateDrawing, tellSize, setUpDueDrawing]
      split <;> rfl
  | endPass =>
      apply noted_of_pending
      simp only [moment, takeDirty]
      split <;> rfl
  | _ => exact noted_of_pending rfl

theorem noted_through {effect : Effect σ} (compiled : effect.isCompiled = true)
    (informed : effect.hasInfo = true) (moments : List (Moment σ)) :
    (effect.through painter moments).noted =
      effect.noted.through painter effect moments := by
  induction moments generalizing effect with
  | nil => rfl
  | cons next others ih =>
      have keeps := keepsCode_moment painter effect next
      have still : (effect.moment painter next).isCompiled = true := by
        rw [isCompiled, keeps.sections]
        exact compiled
      have known : (effect.moment painter next).hasInfo = true := by
        rw [hasInfo, keeps.info]
        exact informed
      rw [DueWork.through, ← noted_moment compiled informed next]
      exact ih still known

/-! ## Cycles and states do what is due -/

/-- Compiling with success leaves code of which everything is due. -/
theorem compiled_of_ok {effect : Effect σ} {options : CompileOptions}
    (succeeded : (effect.compile options).result = .ok ()) :
    (effect.compile options).effect.isCompiled = true ∧
      (effect.compile options).effect.noted = ⟨true, true, effect.rig.pending.triggers⟩ := by
  rw [compile] at succeeded ⊢
  split at succeeded
  · split at succeeded
    · exact ⟨rfl, rfl⟩
    · cases succeeded
  · cases succeeded

/-- Over any run of compiled code the notes say what is due, and it is done once.  A cycle
that finds the machine free runs all init sections in order if they are due, then the
slider section once if that is due, then the block section once and the sample section for
each frame, and leaves nothing due.  A cycle during a drawing pass runs nothing and leaves
the notes as they are.  Saving and restoring run the init sections if they are due and
there is a serialize section, which they run next. -/
theorem due_work_is_done_once {effect : Effect σ} (reached : Reached painter config effect)
    (options : CompileOptions) (succeeded : (effect.compile options).result = .ok ())
    (moments : List (Moment σ)) :
    let start := (effect.compile options).effect
    let now := start.through painter moments
    let due := DueWork.through painter ⟨true, true, effect.rig.pending.triggers⟩ start moments
    let serialized := (if (start.programId? .serialize).isSome && due.init then start.initIds
      else []) ++ (start.programId? .serialize).toList
    now.programOf = start.programOf ∧ now.noted = due ∧
    (∀ (precision : Precision) (inputs outputs : List Channel) (frames : Nat),
      let steps := now.cycleSteps inputs outputs frames
      let after := (now.process precision inputs outputs frames).2
      after = now.performAll steps ∧
      (now.rig.drawing.isBusy = true → Step.programs steps = [] ∧ after.noted = due) ∧
      (now.rig.drawing.isBusy = false →
        Step.programs steps =
          (if due.init then start.initIds else []) ++
          (if due.slider || due.init then (start.programId? .slider).toList else []) ++
          (start.programId? .block).toList ++
          (List.replicate frames (start.programId? .sample).toList).flatten ∧
        after.noted = ⟨false, false, Mask.empty⟩)) ∧
    (now.saveState.1.isSome = true ∧ now.saveState.2 = now.performAll now.saveSteps ∧
      Step.programs now.saveSteps = serialized) ∧
    ∀ state : EffectState, (now.loadState state).1 = true ∧
      (now.loadState state).2 = now.performAll (now.loadSteps state) ∧
      Step.programs (now.loadSteps state) = serialized := by
  intro start now due serialized
  rcases compiled_of_ok succeeded with ⟨begun, fresh⟩
  have known : start.hasInfo = true := (reached.compile options).grounded.hasInfo begun
  have keeps : start.rig.KeepsCode now.rig := keepsCode_through painter start moments
  have compiled : now.isCompiled = true := by
    rw [isCompiled, keeps.sections]
    exact begun
  have informed : now.hasInfo = true := by
    rw [hasInfo, keeps.info]
    exact known
  have notes : now.noted = due := by
    have followed : now.noted = start.noted.through painter start moments :=
      noted_through begun known moments
    rw [fresh] at followed
    exact followed
  have init : now.rig.pending.init = due.init := congrArg DueWork.init notes
  have slider : (now.rig.pending.slider || now.rig.pending.sliderMoved) = due.slider :=
    congrArg DueWork.slider notes
  have sliderIsDue : now.sliderIsDue = (due.slider || due.init) := by
    rw [Effect.sliderIsDue, slider, init, informed, Bool.and_true]
  have states : ∀ (mode : SerializeMode) (data : ByteArray),
      Step.programs (now.serializeSteps mode data) = serialized := by
    intro mode data
    rw [programs_serializeSteps informed, init, programId?_of_keepsCode keeps,
      initIds_of_keepsCode keeps]
  refine ⟨programOf_of_keepsCode keeps, notes, ?_, ?_, ?_⟩
  · intro precision inputs outputs frames
    have cycled := noted_process compiled informed precision inputs outputs frames
    refine ⟨process_eq_performAll now precision inputs outputs frames, ?_, ?_⟩
    · intro busy
      rw [busy, if_pos rfl, notes] at cycled
      refine ⟨?_, cycled⟩
      rw [cycleSteps, compiled, busy]
      rfl
    · intro idle
      rw [idle, if_neg Bool.false_ne_true] at cycled
      refine ⟨?_, cycled⟩
      rw [programs_cycleSteps_of_idle compiled informed idle, init, sliderIsDue,
        programId?_of_keepsCode keeps, initIds_of_keepsCode keeps]
  · have done : (now.serialize .writing ByteArray.empty).2.hasInfo = true := by
      rw [hasInfo, (continues_serialize now .writing ByteArray.empty).info]
      exact informed
    refine ⟨?_, saveState_eq_performAll now, ?_⟩
    · rw [saveState, if_pos compiled]
      dsimp only
      rw [if_pos done]
      rfl
    · rw [saveSteps, if_pos compiled]
      exact states .writing ByteArray.empty
  · intro state
    refine ⟨?_, loadState_eq_performAll now state, ?_⟩
    · rw [loadState, compiled, informed]
      rfl
    · rw [loadSteps, compiled, informed]
      exact states .reading state.data

/-- A script with all sections.  A slider is moved during a drawing pass, in which a cycle
passes by, and the sample rate changes.  Saving then runs init, which is program one, and
the next cycle the slider section, the block section and the sample section twice. -/
theorem due_work_is_done_once_saved :
    let painter : Painter Unit :=
      { size := fun _ => (4, 3), scale := fun _ => 1.0, reset := fun surface => surface
        call := fun _ _ effect => (0.0, effect)
        takeDirty := fun surface => (true, surface) }
    let disk := Disk.empty.addFile ["script"]
      "@init\n@slider\n@block\n@sample\n@serialize\nfile_mem(0, 0, 4);\n".toUTF8
    let loaded := (Effect.new disk {}).after painter [.load "/script" false]
    let start := (loaded.compile {}).effect
    let cycle : Moment Unit := .cycle (.process .double [] [] 1)
    let now := start.through painter
      [cycle, .beginPass (), .cycle (.setSliderFromDrawing 3 0.5), cycle, .endPass,
        .cycle (.setSampleRate 48000.0)]
    let later := now.moment painter .saveState
    Reached painter {} loaded ∧ (loaded.compile {}).result = .ok () ∧
      Step.programs now.saveSteps = [1, 5] ∧
      (later.process .double [] [] 2).2 = later.performAll (later.cycleSteps [] [] 2) ∧
      Step.programs (later.cycleSteps [] [] 2) = [2, 3, 4, 4] := by
  intro painter disk loaded start cycle now later
  have confined : painter.Confined := fun _ _ _ => ⟨[], rfl⟩
  have reached : Reached painter {} loaded := reached_after confined disk {} _
  have succeeded : (loaded.compile {}).result = .ok () := by
    apply result_of_isOk
    decide +kernel
  have saved := due_work_is_done_once reached {} succeeded
    [cycle, .beginPass (), .cycle (.setSliderFromDrawing 3 0.5), cycle, .endPass,
      .cycle (.setSampleRate 48000.0)]
  have cycled := due_work_is_done_once reached {} succeeded
    [cycle, .beginPass (), .cycle (.setSliderFromDrawing 3 0.5), cycle, .endPass,
      .cycle (.setSampleRate 48000.0), .saveState]
  rcases saved with ⟨_, _, _, ⟨_, _, programs⟩, _⟩
  rcases cycled with ⟨_, _, process, _⟩
  rcases process .double [] [] 2 with ⟨done, _, free⟩
  refine ⟨reached, succeeded, ?_, done, ?_⟩
  · rw [programs]
    decide +kernel
  · have idle : later.rig.drawing.isBusy = false := by decide +kernel
    refine (free idle).1.trans ?_
    decide +kernel

end Effect
end EffectHost

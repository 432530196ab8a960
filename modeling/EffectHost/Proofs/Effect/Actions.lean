import EffectHost.Effect.Painting
import EffectHost.Effect.SavedState
import EffectHost.Proofs.Code.Run

/-!
# Runs of an effect

A host drives an effect by actions in any order.  Cycle actions need no program to stand
still and may come at any time, also from inside a drawing function; what else a drawing
function can do is to use the store of the script that calls it and to paint.  Everything
but loading and compiling continues the rig: the programs and the script remain, and no
work is noted for code that is not there.
-/

namespace EffectHost

/-- What a host does around the cycles of an effect. -/
inductive CycleAction where
  | process (precision : Precision) (inputs outputs : List Channel) (frames : Nat)
  | setSlider (index : Nat) (value : Float)
  | setSliderFromDrawing (index : Nat) (value : Float)
  | fetchChanges
  | fetchAutomations
  | setBlockSize (size : Nat)
  | setSampleRate (rate : Float)
  | setTime (time : TimeInfo)
  | sendMidi (event : MidiEvent)
  | receiveMidi
  | receiveMidiOnBus (bus : UInt32)
  | sendTrigger (index : Nat)

/-- What a drawing function can do while a pass goes on.  A state is saved or restored
there only if no section has to run for it, since the machine is in use.  A host that does so from
elsewhere all the same puts the serializer to use, or moves the sliders, before it waits for the
machine.  Such an overlap of two runs of code is not among these actions. -/
inductive PassAction (σ : Type) where
  | cycle (action : CycleAction)
  | saveState
  | loadState (state : EffectState)
  | assign (cell : Cell) (value : Float)
  | writeRange (address : Nat) (values : Array Float)
  | setString (id : Float) (text : String)
  | paint (change : σ → σ)

/-- What a host does with an effect. -/
inductive HostAction (σ : Type) where
  | cycle (action : CycleAction)
  | load (path : String) (ignoreImports : Bool)
  | compile (options : CompileOptions)
  | unloadCode
  | unload
  | saveState
  | loadState (state : EffectState)
  | attach (surface : σ)
  | setKey (key : Nat) (pressed : Bool)
  | setMouse (modifiers : Nat) (x y : Int) (buttons : Nat) (wheel sideWheel : Float)
  | draw
  /-- The files change, which is none of the effect's doing. -/
  | changeDisk (disk : Disk)

namespace Effect

variable {σ : Type}

/-- Carry out a cycle action. -/
def actInCycle (effect : Effect σ) : CycleAction → Effect σ
  | .process precision inputs outputs frames =>
    (effect.process precision inputs outputs frames).2
  | .setSlider index value => effect.setSlider index value
  | .setSliderFromDrawing index value => effect.setSliderFromDrawing index value
  | .fetchChanges => effect.fetchChanges.2
  | .fetchAutomations => effect.fetchAutomations.2
  | .setBlockSize size => effect.setBlockSize size
  | .setSampleRate rate => effect.setSampleRate rate
  | .setTime time => effect.setTime time
  | .sendMidi event => (effect.sendMidi event).2
  | .receiveMidi => effect.receiveMidi.2
  | .receiveMidiOnBus bus => (effect.receiveMidiOnBus bus).2
  | .sendTrigger index => (effect.sendTrigger index).2

/-- Carry out what a drawing function does.  To save or restore a state for which a section has to
run would be to wait for the end of the pass, so that nothing is done here. -/
def actInPass (effect : Effect σ) : PassAction σ → Effect σ
  | .cycle action => effect.actInCycle action
  | .saveState =>
    if (effect.programId? .serialize).isSome then effect else effect.saveState.2
  | .loadState state =>
    if (effect.programId? .serialize).isSome then effect else (effect.loadState state).2
  | .assign cell value => { effect with store := effect.store.set cell value }
  | .writeRange address values =>
    { effect with store := (effect.store.writeRange address values).2 }
  | .setString id text => { effect with store := (effect.store.setString id text).2 }
  | .paint change =>
    effect.updateDrawing fun drawing => { drawing with surface? := drawing.surface?.map change }

/-- Carry out an action of the host. -/
def act (painter : Painter σ) (effect : Effect σ) : HostAction σ → Effect σ
  | .cycle action => effect.actInCycle action
  | .load path ignoreImports => (effect.load path ignoreImports).effect
  | .compile options => (effect.compile options).effect
  | .unloadCode => effect.unloadCode
  | .unload => effect.unload
  | .saveState => effect.saveState.2
  | .loadState state => (effect.loadState state).2
  | .attach surface => effect.attach surface
  | .setKey key pressed => effect.setKey key pressed
  | .setMouse modifiers x y buttons wheel sideWheel =>
    effect.setMouse modifiers x y buttons wheel sideWheel
  | .draw => (effect.draw painter).2
  | .changeDisk disk => { effect with rig := { effect.rig with disk := disk } }

/-- Carry out actions one after another. -/
def after (effect : Effect σ) (painter : Painter σ) (actions : List (HostAction σ)) :
    Effect σ :=
  actions.foldl (act painter) effect

end Effect

/-- Whatever a drawing function does to the effect that calls it, it does by actions that
are possible during a pass. -/
def Painter.Confined {σ : Type} (painter : Painter σ) : Prop :=
  ∀ (name : String) (args : List Arg) (effect : Effect σ), ∃ actions : List (PassAction σ),
    (painter.call name args effect).2 = actions.foldl Effect.actInPass effect

/-! ## Continuing a rig -/

namespace Rig

variable {σ : Type}

/-- Work that waits belongs to code that is there. -/
structure WorkFits (rig : Rig σ) : Prop where
  fresh : rig.pending.isFresh = true → rig.pending.init = true
  due : rig.pending.init = true → rig.sections?.isSome = true

/-- The code and the script of a rig are still there. -/
structure Continues (before after : Rig σ) : Prop where
  code : after.code = before.code
  sections : after.sections? = before.sections?
  drawingProgram : after.drawing.program? = before.drawing.program?
  script : after.script? = before.script?
  info : after.info? = before.info?
  busy : after.drawing.isBusy = before.drawing.isBusy
  work : before.WorkFits → after.WorkFits

namespace Continues

theorem refl (rig : Rig σ) : Continues rig rig :=
  ⟨rfl, rfl, rfl, rfl, rfl, rfl, id⟩

theorem of_eq {before after : Rig σ} (same : after = before) : Continues before after := by
  rw [same]
  exact refl before

theorem trans {first second third : Rig σ} (left : Continues first second)
    (right : Continues second third) : Continues first third where
  code := right.code.trans left.code
  sections := right.sections.trans left.sections
  drawingProgram := right.drawingProgram.trans left.drawingProgram
  script := right.script.trans left.script
  info := right.info.trans left.info
  busy := right.busy.trans left.busy
  work := fun fits => right.work (left.work fits)

end Continues
end Rig

namespace Effect

variable {σ : Type}

open Rig

/-! ### Settings -/

/-- Work of other kinds than init may be noted at any time. -/
theorem continues_updatePending (effect : Effect σ) (change : PendingWork → PendingWork)
    (kept : ∀ pending, (change pending).isFresh = pending.isFresh ∧
      (change pending).init = pending.init) :
    effect.rig.Continues (effect.updatePending change).rig := by
  rcases kept effect.rig.pending with ⟨fresh, init⟩
  refine ⟨rfl, rfl, rfl, rfl, rfl, rfl, ?_⟩
  intro fits
  constructor
  · intro isFresh
    exact init.trans (fits.fresh (fresh.symm.trans isFresh))
  · intro isDue
    exact fits.due (init.symm.trans isDue)

theorem continues_updateDrawing (effect : Effect σ) (change : Drawing σ → Drawing σ)
    (kept : ∀ drawing, (change drawing).program? = drawing.program? ∧
      (change drawing).isBusy = drawing.isBusy) :
    effect.rig.Continues (effect.updateDrawing change).rig := by
  rcases kept effect.rig.drawing with ⟨program, busy⟩
  exact ⟨rfl, rfl, program, rfl, rfl, busy, fun fits => ⟨fits.fresh, fits.due⟩⟩

theorem continues_moveSlider (effect : Effect σ) (index : Nat) (value : Float)
    (note : PendingWork → PendingWork)
    (kept : ∀ pending, (note pending).isFresh = pending.isFresh ∧
      (note pending).init = pending.init) :
    effect.rig.Continues (effect.moveSlider index value note).rig := by
  rw [moveSlider]
  split
  · exact continues_updatePending _ note kept
  · exact Continues.refl effect.rig

theorem continues_requestInit (effect : Effect σ) :
    effect.rig.Continues effect.requestInit.rig := by
  rw [requestInit]
  split
  · next compiled =>
      exact ⟨rfl, rfl, rfl, rfl, rfl, rfl, fun _ => ⟨fun _ => rfl, fun _ => compiled⟩⟩
  · exact Continues.refl effect.rig

theorem continues_setBlockSize (effect : Effect σ) (size : Nat) :
    effect.rig.Continues (effect.setBlockSize size).rig := by
  rw [setBlockSize]
  split
  · exact Continues.refl effect.rig
  · apply Continues.trans _ (continues_requestInit _)
    exact ⟨rfl, rfl, rfl, rfl, rfl, rfl, fun fits => ⟨fits.fresh, fits.due⟩⟩

theorem continues_setSampleRate (effect : Effect σ) (rate : Float) :
    effect.rig.Continues (effect.setSampleRate rate).rig := by
  rw [setSampleRate]
  split
  · exact Continues.refl effect.rig
  · apply Continues.trans _ (continues_requestInit _)
    exact ⟨rfl, rfl, rfl, rfl, rfl, rfl, fun fits => ⟨fits.fresh, fits.due⟩⟩

theorem continues_setTime (effect : Effect σ) (time : TimeInfo) :
    effect.rig.Continues (effect.setTime time).rig := by
  rw [setTime]
  dsimp only
  split
  · apply Continues.trans (continues_requestInit effect)
    exact ⟨rfl, rfl, rfl, rfl, rfl, rfl, fun fits => ⟨fits.fresh, fits.due⟩⟩
  · exact ⟨rfl, rfl, rfl, rfl, rfl, rfl, fun fits => ⟨fits.fresh, fits.due⟩⟩

theorem continues_takeMidi (effect : Effect σ)
    (next? : MidiLog → Option (MidiEvent × MidiLog)) :
    effect.rig.Continues (effect.takeMidi next?).2.rig := by
  rw [takeMidi]
  split <;> exact Continues.refl effect.rig

theorem continues_sendTrigger (effect : Effect σ) (index : Nat) :
    effect.rig.Continues (effect.sendTrigger index).2.rig := by
  rw [sendTrigger]
  split
  · exact continues_updatePending effect _ fun _ => ⟨rfl, rfl⟩
  · exact Continues.refl effect.rig

/-! ### Cycles -/

/-- Code that does not draw does not reach the rig. -/
theorem rig_runSection (effect : Effect σ) (caller : Caller) (kind : SectionKind) :
    (effect.runSection caller kind).rig = effect.rig := by
  rw [runSection]
  split <;> rfl

theorem rig_prepareFresh (effect : Effect σ) : effect.prepareFresh.rig = effect.rig := by
  rw [prepareFresh]

theorem rig_startInit (effect : Effect σ) : effect.startInit.rig = effect.rig := by
  rw [startInit]
  dsimp only
  split
  · exact rig_prepareFresh effect
  · rfl

theorem rig_runInitPrograms (effect : Effect σ) :
    effect.runInitPrograms.rig = effect.rig := by
  have kept : ∀ (programs : List Program) (current : Effect σ),
      (programs.foldl (fun effect program => effect.run cycleCaller program) current).rig =
        current.rig := by
    intro programs
    induction programs with
    | nil => exact fun _ => rfl
    | cons program others ih => exact fun current => ih (current.run cycleCaller program)
  exact kept effect.initPrograms effect

theorem continues_runInit (effect : Effect σ) :
    effect.rig.Continues effect.runInit.rig := by
  rw [runInit]
  split
  · have ran : effect.startInit.runInitPrograms.rig = effect.rig :=
      (rig_runInitPrograms effect.startInit).trans (rig_startInit effect)
    apply (Continues.of_eq ran).trans
    exact ⟨rfl, rfl, rfl, rfl, rfl, rfl, fun _ => ⟨nofun, nofun⟩⟩
  · exact Continues.refl effect.rig

theorem continues_runDueInit (effect : Effect σ) :
    effect.rig.Continues effect.runDueInit.rig := by
  rw [runDueInit]
  split
  · exact continues_runInit effect
  · exact Continues.refl effect.rig

theorem continues_noteMoves (effect : Effect σ) :
    effect.rig.Continues effect.noteMoves.rig :=
  continues_updatePending effect _ fun _ => ⟨rfl, rfl⟩

theorem continues_runDueSlider (effect : Effect σ) :
    effect.rig.Continues effect.runDueSlider.rig := by
  rw [runDueSlider]
  have ran : (if effect.rig.pending.slider then effect.runSection cycleCaller .slider
      else effect).rig = effect.rig := by
    split
    · exact rig_runSection effect cycleCaller .slider
    · rfl
  apply (Continues.of_eq ran).trans
  exact continues_updatePending _ _ fun _ => ⟨rfl, rfl⟩

theorem rig_runBlock (effect : Effect σ) (plan : ChannelPlan) (precision : Precision)
    (inputs outputs : List Channel) (frames : Nat) :
    (effect.runBlock plan precision inputs outputs frames).2.rig = effect.rig := by
  rw [runBlock]
  split <;> rfl

theorem continues_runCycle (effect : Effect σ) (precision : Precision)
    (inputs outputs : List Channel) (frames : Nat) :
    effect.rig.Continues (effect.runCycle precision inputs outputs frames).2.rig := by
  rw [runCycle]
  let plan := ChannelPlan.of effect.header inputs outputs
  let told := effect.tellCycle plan frames
  apply (continues_runDueSlider told).trans
  apply Continues.of_eq
  exact (rig_runBlock _ plan precision inputs outputs frames).trans
    (rig_runSection told.runDueSlider cycleCaller .block)

theorem continues_process (effect : Effect σ) (precision : Precision)
    (inputs outputs : List Channel) (frames : Nat) :
    effect.rig.Continues (effect.process precision inputs outputs frames).2.rig := by
  have begun : effect.rig.Continues effect.beginCycle.rig :=
    ⟨rfl, rfl, rfl, rfl, rfl, rfl, fun fits => ⟨fits.fresh, fits.due⟩⟩
  apply begun.trans
  rw [process]
  split
  · exact Continues.refl _
  · split
    · exact ⟨rfl, rfl, rfl, rfl, rfl, rfl, fun fits => ⟨fits.fresh, fits.due⟩⟩
    · rw [execute]
      apply ((continues_runDueInit _).trans (continues_noteMoves _)).trans
      split
      · exact continues_runCycle _ precision inputs outputs frames
      · exact Continues.refl _

/-- No cycle action touches the code or the script. -/
theorem continues_actInCycle (effect : Effect σ) (action : CycleAction) :
    effect.rig.Continues (effect.actInCycle action).rig := by
  cases action with
  | process precision inputs outputs frames =>
      exact continues_process effect precision inputs outputs frames
  | setSlider index value =>
      exact continues_moveSlider effect index value _ fun _ => ⟨rfl, rfl⟩
  | setSliderFromDrawing index value =>
      exact continues_moveSlider effect index value _ fun _ => ⟨rfl, rfl⟩
  | fetchChanges => exact Continues.refl effect.rig
  | fetchAutomations => exact Continues.refl effect.rig
  | setBlockSize size => exact continues_setBlockSize effect size
  | setSampleRate rate => exact continues_setSampleRate effect rate
  | setTime time => exact continues_setTime effect time
  | sendMidi event => exact Continues.refl effect.rig
  | receiveMidi => exact continues_takeMidi effect _
  | receiveMidiOnBus bus => exact continues_takeMidi effect _
  | sendTrigger index => exact continues_sendTrigger effect index

/-! ### States -/

theorem continues_runSerialize (effect : Effect σ) :
    effect.rig.Continues effect.runSerialize.rig := by
  rw [runSerialize]
  split
  · dsimp only
    apply (continues_runDueInit effect).trans
    split
    · exact Continues.of_eq (rig_runSection _ serializeCaller .serialize)
    · exact Continues.refl _
  · exact Continues.refl effect.rig

theorem continues_serialize (effect : Effect σ) (mode : SerializeMode) (data : ByteArray) :
    effect.rig.Continues (effect.serialize mode data).2.rig := by
  rw [serialize]
  exact continues_runSerialize (effect.beginSerialize mode data)

theorem continues_saveState (effect : Effect σ) :
    effect.rig.Continues effect.saveState.2.rig := by
  rw [saveState]
  split
  · dsimp only
    split <;> exact continues_serialize effect .writing ByteArray.empty
  · exact Continues.refl effect.rig

theorem continues_loadState (effect : Effect σ) (state : EffectState) :
    effect.rig.Continues (effect.loadState state).2.rig := by
  rw [loadState]
  split
  · apply Continues.trans _ (continues_serialize _ .reading state.data)
    exact ⟨rfl, rfl, rfl, rfl, rfl, rfl, fun fits => ⟨fits.fresh, fits.due⟩⟩
  · exact Continues.refl effect.rig

/-! ### Drawing passes -/

theorem rig_setKey (effect : Effect σ) (key : Nat) (pressed : Bool) :
    (effect.setKey key pressed).rig = effect.rig := by
  rw [setKey]
  split <;> rfl

theorem rig_setMouse (effect : Effect σ) (modifiers : Nat) (x y : Int) (buttons : Nat)
    (wheel sideWheel : Float) :
    (effect.setMouse modifiers x y buttons wheel sideWheel).rig = effect.rig := by
  rw [setMouse]
  split
  · dsimp only
  · rfl

theorem continues_actInPass (effect : Effect σ) (action : PassAction σ) :
    effect.rig.Continues (effect.actInPass action).rig := by
  cases action with
  | cycle action => exact continues_actInCycle effect action
  | saveState =>
      rw [actInPass]
      split
      · exact Continues.refl effect.rig
      · exact continues_saveState effect
  | loadState state =>
      rw [actInPass]
      split
      · exact Continues.refl effect.rig
      · exact continues_loadState effect state
  | assign cell value => exact Continues.refl effect.rig
  | writeRange address values => exact Continues.refl effect.rig
  | setString id text => exact Continues.refl effect.rig
  | paint change => exact continues_updateDrawing effect _ fun _ => ⟨rfl, rfl⟩

/-- A drawing function leaves the code and the script alone. -/
theorem continues_call {painter : Painter σ} (confined : painter.Confined) (name : String)
    (args : List Arg) (effect : Effect σ) :
    effect.rig.Continues (painter.call name args effect).2.rig := by
  rcases confined name args effect with ⟨actions, performed⟩
  rw [performed]
  clear performed
  induction actions generalizing effect with
  | nil => exact Continues.refl effect.rig
  | cons action others ih => exact (continues_actInPass effect action).trans (ih _)

theorem preserves_drawingHost {painter : Painter σ} (confined : painter.Confined)
    (facts : Facts) (rig : Rig σ) :
    (drawingHost facts painter).Preserves fun state => rig.Continues state.2.2 where
  set := fun _ _ _ _ before => before
  writeItem := fun _ _ _ _ before => before
  call := by
    intro name args state before
    rcases state with ⟨store, around, current⟩
    rw [drawingHost_call]
    split
    · exact before
    · split
      · exact before.trans (continues_call confined name args ⟨store, around, current⟩)
      · exact before

/-- Between the marks at both ends, a drawing program only continues the rig. -/
theorem continues_runDrawing {painter : Painter σ} (confined : painter.Confined)
    (effect : Effect σ) (program : Program) (idle : effect.rig.drawing.isBusy = false) :
    effect.rig.Continues (effect.runDrawing painter program).rig := by
  -- What runs continues the rig with the mark set; only the mark differs from the one before.
  let busy := effect.setBusy true
  have ran := Code.run_preserves (preserves_drawingHost confined effect.facts busy.rig)
    program (busy.store, busy.around, busy.rig) (Continues.refl busy.rig)
  rw [runDrawing]
  refine ⟨ran.code, ran.sections, ran.drawingProgram, ran.script, ran.info, idle.symm, ?_⟩
  intro fits
  have kept := ran.work ⟨fits.fresh, fits.due⟩
  exact ⟨kept.fresh, kept.due⟩

theorem continues_setUpDueDrawing (effect : Effect σ) (painter : Painter σ) (surface : σ) :
    effect.rig.Continues (effect.setUpDueDrawing painter surface).rig := by
  rw [setUpDueDrawing]
  split
  · exact ⟨rfl, rfl, rfl, rfl, rfl, rfl, fun fits => ⟨fits.fresh, fits.due⟩⟩
  · exact Continues.refl effect.rig

theorem continues_takeDirty (effect : Effect σ) (painter : Painter σ) :
    effect.rig.Continues (effect.takeDirty painter).2.rig := by
  rw [takeDirty]
  split
  · exact continues_updateDrawing effect _ fun _ => ⟨rfl, rfl⟩
  · exact Continues.refl effect.rig

theorem continues_runPass {painter : Painter σ} (confined : painter.Confined)
    (effect : Effect σ) (idle : effect.rig.drawing.isBusy = false) :
    effect.rig.Continues (effect.runPass painter).2.rig := by
  rw [runPass]
  split
  · next program surface _ _ =>
      let ready := effect.setUpDueDrawing painter surface
      let sized := ready.tellSize painter (ready.rig.drawing.surface?.getD surface)
      have begun : effect.rig.Continues sized.rig :=
        continues_setUpDueDrawing effect painter surface
      apply begun.trans
      apply Continues.trans _ (continues_takeDirty _ painter)
      exact continues_runDrawing confined sized program (begun.busy.trans idle)
  · exact Continues.refl effect.rig

theorem continues_draw {painter : Painter σ} (confined : painter.Confined)
    (effect : Effect σ) (idle : effect.rig.drawing.isBusy = false) :
    effect.rig.Continues (effect.draw painter).2.rig := by
  rw [draw]
  split
  · exact continues_runPass confined effect idle
  · exact Continues.refl effect.rig

end Effect
end EffectHost

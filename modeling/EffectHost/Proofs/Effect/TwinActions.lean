import EffectHost.Proofs.Effect.Twins

/-!
# What a host does with twins

Whatever a host does with twin effects, it gets the same answer from both, and they remain
twins.  That covers drawing with functions that follow a plan, and also the end of the code:
twins that are unloaded are still twins, and so they are if the next script is loaded and
compiled.
-/

namespace EffectHost
namespace Effect

open HostFunction

variable {σ : Type} {painter : Painter σ} {shift : CellShift} {one two : Effect σ}

namespace Twins

/-! ## Settings and messages -/

theorem moveSlider (twins : Twins painter shift one two) (index : Nat) (value : Float)
    {note : PendingWork → PendingWork}
    (noted : PendingWork.Twins (one.rig.sections?.isSome = true) (note one.rig.pending)
      (note two.rig.pending)) :
    Twins painter shift (one.moveSlider index value note) (two.moveSlider index value note) := by
  rw [Effect.moveSlider, Effect.moveSlider]
  split
  · exact ⟨twins.store.write _ value, twins.around, { twins.rig with pending := noted }⟩
  · exact twins

theorem requestInit (twins : Twins painter shift one two) :
    Twins painter shift one.requestInit two.requestInit := by
  have pending := twins.rig.pending
  rw [Effect.requestInit, Effect.requestInit, twins.isCompiled]
  split
  · exact twins.updatePending
      ⟨pending.isFresh, rfl, pending.slider, pending.triggers, pending.moved⟩
  · exact twins

theorem setBlockSize (twins : Twins painter shift one two) (size : Nat) :
    Twins painter shift (one.setBlockSize size) (two.setBlockSize size) := by
  rw [Effect.setBlockSize, Effect.setBlockSize, twins.rig.blockSize]
  split
  · exact twins
  · exact requestInit ⟨twins.store, twins.around, { twins.rig with blockSize := rfl }⟩

theorem setSampleRate (twins : Twins painter shift one two) (rate : Float) :
    Twins painter shift (one.setSampleRate rate) (two.setSampleRate rate) := by
  rw [Effect.setSampleRate, Effect.setSampleRate, twins.rig.sampleRate]
  split
  · exact twins
  · exact requestInit ⟨twins.store, twins.around, { twins.rig with sampleRate := rfl }⟩

theorem setTime (twins : Twins painter shift one two) (time : TimeInfo) :
    Twins painter shift (one.setTime time) (two.setTime time) := by
  rw [Effect.setTime, Effect.setTime, twins.rig.time, twins.store.read .noInit]
  dsimp only
  split
  · have requested := twins.requestInit
    exact ⟨requested.store.writeAll _, requested.around, { requested.rig with time := rfl }⟩
  · exact ⟨twins.store.writeAll _, twins.around, { twins.rig with time := rfl }⟩

theorem sendMidi (twins : Twins painter shift one two) (event : MidiEvent) :
    (one.sendMidi event).1 = (two.sendMidi event).1 ∧
      Twins painter shift (one.sendMidi event).2 (two.sendMidi event).2 := by
  have around := twins.around
  rw [Effect.sendMidi, Effect.sendMidi, around.input]
  exact ⟨rfl, twins.withAround ⟨around.masks, around.files, rfl, around.output,
    around.keyboard⟩⟩

theorem takeMidi (twins : Twins painter shift one two)
    (next? : MidiLog → Option (MidiEvent × MidiLog)) :
    (one.takeMidi next?).1 = (two.takeMidi next?).1 ∧
      Twins painter shift (one.takeMidi next?).2 (two.takeMidi next?).2 := by
  have around := twins.around
  rw [Effect.takeMidi, Effect.takeMidi, around.output]
  split
  · exact ⟨rfl, twins.withAround ⟨around.masks, around.files, around.input, rfl,
      around.keyboard⟩⟩
  · exact ⟨rfl, twins⟩

theorem sendTrigger (twins : Twins painter shift one two) (index : Nat) :
    (one.sendTrigger index).1 = (two.sendTrigger index).1 ∧
      Twins painter shift (one.sendTrigger index).2 (two.sendTrigger index).2 := by
  have pending := twins.rig.pending
  rw [Effect.sendTrigger, Effect.sendTrigger]
  split
  · refine ⟨rfl, twins.store, twins.around, { twins.rig with pending := ?_ }⟩
    exact ⟨pending.isFresh, pending.init, pending.slider,
      congrArg (Mask.union · (Mask.single index)) pending.triggers, pending.moved⟩
  · exact ⟨rfl, twins⟩

/-- Cycle actions have the same answers. -/
theorem actInCycle (twins : Twins painter shift one two) (action : CycleAction) :
    one.answerInCycle action = two.answerInCycle action ∧
      Twins painter shift (one.actInCycle action) (two.actInCycle action) := by
  have around := twins.around
  have pending := twins.rig.pending
  cases action with
  | process precision inputs outputs frames =>
      rcases twins.process precision inputs outputs frames with ⟨channels, done⟩
      exact ⟨congrArg Answer.channels channels, done⟩
  | setSlider index value =>
      exact ⟨rfl, twins.moveSlider index value ⟨pending.isFresh, pending.init, rfl,
        pending.triggers, fun _ => .inl rfl⟩⟩
  | setSliderFromDrawing index value =>
      exact ⟨rfl, twins.moveSlider index value ⟨pending.isFresh, pending.init,
        pending.slider, pending.triggers, fun _ => .inr rfl⟩⟩
  | fetchChanges =>
      have fetched := congrArg (fun masks : SliderMasks =>
        { masks with changed := Mask.empty }) around.masks
      exact ⟨congrArg (fun masks : SliderMasks => Answer.mask masks.changed) around.masks,
        twins.withAround ⟨fetched, around.files, around.input, around.output,
          around.keyboard⟩⟩
  | fetchAutomations =>
      have fetched := congrArg (fun masks : SliderMasks =>
        { masks with automated := Mask.empty }) around.masks
      exact ⟨congrArg (fun masks : SliderMasks => Answer.mask masks.automated) around.masks,
        twins.withAround ⟨fetched, around.files, around.input, around.output,
          around.keyboard⟩⟩
  | setBlockSize size => exact ⟨rfl, twins.setBlockSize size⟩
  | setSampleRate rate => exact ⟨rfl, twins.setSampleRate rate⟩
  | setTime time => exact ⟨rfl, twins.setTime time⟩
  | sendMidi event =>
      rcases twins.sendMidi event with ⟨pushed, sent⟩
      exact ⟨congrArg Answer.flag pushed, sent⟩
  | receiveMidi =>
      rcases twins.takeMidi MidiLog.next? with ⟨taken, left⟩
      exact ⟨congrArg Answer.event taken, left⟩
  | receiveMidiOnBus bus =>
      rcases twins.takeMidi fun log => log.nextOnBus? bus with ⟨taken, left⟩
      exact ⟨congrArg Answer.event taken, left⟩
  | sendTrigger index =>
      rcases twins.sendTrigger index with ⟨raised, noted⟩
      exact ⟨congrArg Answer.flag raised, noted⟩

/-! ## States -/

theorem twins_defaultSliders {first second : Store} (twins : Store.Twins shift first second)
    (header : Header) :
    Store.Twins shift (defaultSliders first header) (defaultSliders second header) := by
  rw [defaultSliders, defaultSliders]
  induction List.finRange sliderSlots generalizing first second with
  | nil => exact twins
  | cons slot others ih =>
      apply ih
      dsimp only
      split
      · exact twins.write _ _
      · exact twins

theorem twins_writeSliders {first second : Store} (twins : Store.Twins shift first second)
    (header : Header) (values : List SliderValue) :
    Store.Twins shift (writeSliders first header values)
      (writeSliders second header values) := by
  rw [writeSliders, writeSliders]
  induction values generalizing first second with
  | nil => exact twins
  | cons entry others ih =>
      apply ih
      dsimp only
      split
      · split
        · exact twins.write _ _
        · exact twins
      · exact twins

theorem runSerialize (twins : Twins painter shift one two) :
    Twins painter shift one.runSerialize two.runSerialize := by
  have ready := twins.runDueInit
  rw [Effect.runSerialize, Effect.runSerialize, twins.programId?_isSome .serialize]
  split
  · dsimp only
    rw [ready.hasInfo]
    split
    · exact ready.runSection rfl .serialize
    · exact ready
  · exact twins

theorem withFiles (twins : Twins painter shift one two) {files others : FileTable}
    (same : files = others) :
    Twins painter shift { one with around := { one.around with files := files } }
      { two with around := { two.around with files := others } } :=
  have around := twins.around
  twins.withAround ⟨around.masks, same, around.input, around.output, around.keyboard⟩

theorem serialize (twins : Twins painter shift one two) (mode : SerializeMode)
    (data : ByteArray) :
    (one.serialize mode data).1 = (two.serialize mode data).1 ∧
      Twins painter shift (one.serialize mode data).2 (two.serialize mode data).2 := by
  have begun : Twins painter shift (one.beginSerialize mode data)
      (two.beginSerialize mode data) :=
    twins.withFiles (congrArg (FileTable.beginSerialize · mode data) twins.around.files)
  have ran := begun.runSerialize
  have files := ran.around.files
  exact ⟨congrArg (fun table : FileTable => table.endSerialize.1) files,
    ran.withFiles (congrArg (fun table : FileTable => table.endSerialize.2) files)⟩

theorem sliderValues (twins : Twins painter shift one two) :
    one.sliderValues = two.sliderValues := by
  have values : one.sliderValue = two.sliderValue := by
    funext index
    rw [Effect.sliderValue, Effect.sliderValue]
    split
    · exact twins.store.read _
    · rfl
  rw [Effect.sliderValues, Effect.sliderValues, twins.header, values]

/-- The same state is saved. -/
theorem saveState (twins : Twins painter shift one two) :
    one.saveState.1 = two.saveState.1 ∧
      Twins painter shift one.saveState.2 two.saveState.2 := by
  rcases twins.serialize .writing ByteArray.empty with ⟨data, done⟩
  rw [Effect.saveState, Effect.saveState, twins.isCompiled]
  split
  · dsimp only
    rw [data, done.hasInfo, done.sliderValues]
    split
    · exact ⟨rfl, done⟩
    · exact ⟨rfl, done⟩
  · exact ⟨rfl, twins⟩

theorem restoreSliders (twins : Twins painter shift one two) (values : List SliderValue) :
    Twins painter shift (one.perform (.restoreSliders values))
      (two.perform (.restoreSliders values)) := by
  have pending := twins.rig.pending
  have reset := twins_defaultSliders twins.store two.header
  rw [perform, perform, twins.header]
  refine ⟨twins_writeSliders reset two.header values, twins.around,
    { twins.rig with pending := ?_ }⟩
  exact ⟨pending.isFresh, pending.init, rfl, pending.triggers, fun _ => .inl rfl⟩

/-- The same state is restored. -/
theorem loadState (twins : Twins painter shift one two) (state : EffectState) :
    (one.loadState state).1 = (two.loadState state).1 ∧
      Twins painter shift (one.loadState state).2 (two.loadState state).2 := by
  rw [Effect.loadState, Effect.loadState, twins.isCompiled, twins.hasInfo]
  split
  · exact ⟨rfl, ((twins.restoreSliders state.sliders).serialize .reading state.data).2⟩
  · exact ⟨rfl, twins⟩

end Twins

/-! ## Drawing -/

/-- Neither cycles nor states set drawing up or put an end to it. -/
theorem isReady_performAll (effect : Effect σ) (steps : List Step) :
    (effect.performAll steps).rig.drawing.isReady = effect.rig.drawing.isReady := by
  induction steps generalizing effect with
  | nil => rfl
  | cons step others ih =>
      rw [performAll_cons, ih]
      cases step with
      | startInit => rw [perform, rig_startInit]
      | _ => rfl

theorem isReady_actInCycle (effect : Effect σ) (action : CycleAction) :
    (effect.actInCycle action).rig.drawing.isReady = effect.rig.drawing.isReady := by
  cases action with
  | process precision inputs outputs frames =>
      rw [actInCycle, process_eq_performAll]
      exact isReady_performAll effect _
  | sendMidi event => rfl
  | _ => exact congrArg Drawing.isReady (onlyTells_actInCycle effect _ rfl).drawing

/-- Two effects are twins in the middle of a drawing pass. -/
structure DrawingTwins (painter : Painter σ) (shift : CellShift) (one two : Effect σ) :
    Prop where
  twins : Twins painter shift one two
  ready : one.rig.drawing.isReady = true

namespace DrawingTwins

theorem surface (drawing : DrawingTwins painter shift one two) :
    one.rig.drawing.surface? = two.rig.drawing.surface? :=
  drawing.twins.rig.drawing.surface drawing.ready

theorem withStore (drawing : DrawingTwins painter shift one two) {first second : Store}
    (store : Store.Twins shift first second) :
    DrawingTwins painter shift { one with store := first } { two with store := second } :=
  ⟨drawing.twins.withStore store, drawing.ready⟩

/-- What was painted on the same surface gives the same surface. -/
theorem withSurface (drawing : DrawingTwins painter shift one two) {first second : Option σ}
    (same : first = second) :
    DrawingTwins painter shift
      (one.updateDrawing fun drawing => { drawing with surface? := first })
      (two.updateDrawing fun drawing => { drawing with surface? := second }) := by
  have own := drawing.twins.rig.drawing
  refine ⟨⟨drawing.twins.store, drawing.twins.around,
    { drawing.twins.rig with drawing := ?_ }⟩, drawing.ready⟩
  exact ⟨congrArg (Option.map painter.reset) same, own.isReady, own.wantsRetina, own.isBusy,
    fun _ => same, own.requested⟩

/-- A drawing function sees the same. -/
theorem passView (drawing : DrawingTwins painter shift one two) {args : List Arg}
    (used : ArgsWithin shift.InUse args) :
    two.passView (args.map (Arg.rename shift.move)) = one.passView args := by
  have store := drawing.twins.store
  have looked : (args.map (Arg.rename shift.move)).map (fun arg =>
      arg.cell?.map two.store.get) = args.map fun arg => arg.cell?.map one.store.get := by
    rw [List.map_map]
    apply List.map_congr_left
    intro arg member
    simp only [Function.comp_apply, Arg.rename]
    cases plain : arg.cell? with
    | none => rfl
    | some cell => exact congrArg some (store.get cell (used arg member cell plain)).symm
  have texts : two.store.strings.find? = one.store.strings.find? := by
    funext id
    exact (store.strings.find? id).symm
  rw [Effect.passView, Effect.passView, looked, texts, store.memory, drawing.surface]

theorem saveInPass (drawing : DrawingTwins painter shift one two) :
    one.answerSaveInPass = two.answerSaveInPass ∧
      DrawingTwins painter shift (one.actInPass .saveState) (two.actInPass .saveState) := by
  rcases drawing.twins.saveState with ⟨saved, done⟩
  rw [answerSaveInPass, answerSaveInPass, actInPass, actInPass,
    drawing.twins.programId?_isSome .serialize, saved]
  split
  · exact ⟨rfl, drawing⟩
  · refine ⟨rfl, done, ?_⟩
    rw [saveState_eq_performAll, isReady_performAll]
    exact drawing.ready

theorem loadInPass (drawing : DrawingTwins painter shift one two) (state : EffectState) :
    one.answerLoadInPass state = two.answerLoadInPass state ∧
      DrawingTwins painter shift (one.actInPass (.loadState state))
        (two.actInPass (.loadState state)) := by
  rcases drawing.twins.loadState state with ⟨loaded, done⟩
  rw [answerLoadInPass, answerLoadInPass, actInPass, actInPass,
    drawing.twins.programId?_isSome .serialize, loaded]
  split
  · exact ⟨rfl, drawing⟩
  · refine ⟨rfl, done, ?_⟩
    rw [loadState_eq_performAll, isReady_performAll]
    exact drawing.ready

/-- A plan comes out alike. -/
theorem runPlan {args : List Arg} (used : ArgsWithin shift.InUse args) (plan : PainterPlan σ)
    (drawing : DrawingTwins painter shift one two) :
    (plan.run args one).1 = (plan.run (args.map (Arg.rename shift.move)) two).1 ∧
      DrawingTwins painter shift (plan.run args one).2
        (plan.run (args.map (Arg.rename shift.move)) two).2 := by
  induction plan generalizing one two with
  | done value => exact ⟨rfl, drawing⟩
  | look next ih =>
      rw [PainterPlan.run, PainterPlan.run, drawing.passView used]
      exact ih _ drawing
  | assign position value next ih =>
      exact ih (drawing.withStore (drawing.twins.store.assignArg used position value))
  | writeRange address values next ih =>
      exact ih (drawing.withStore (drawing.twins.store.writeRange address values).2)
  | setString id text next ih =>
      exact ih (drawing.withStore (drawing.twins.store.setString id text).2)
  | paint change next ih =>
      exact ih (drawing.withSurface (congrArg (Option.map change) drawing.surface))
  | cycle action next ih =>
      rcases drawing.twins.actInCycle action with ⟨answer, done⟩
      rw [PainterPlan.run, PainterPlan.run, answer]
      exact ih _ ⟨done, (isReady_actInCycle one action).trans drawing.ready⟩
  | saveState next ih =>
      rcases drawing.saveInPass with ⟨answer, done⟩
      rw [PainterPlan.run, PainterPlan.run, answer]
      exact ih _ done
  | loadState state next ih =>
      rcases drawing.loadInPass state with ⟨answer, done⟩
      rw [PainterPlan.run, PainterPlan.run, answer]
      exact ih _ done

/-- A drawing function that follows a plan does the same. -/
theorem call (planned : painter.Planned) (drawing : DrawingTwins painter shift one two)
    (name : String) {args : List Arg} (used : ArgsWithin shift.InUse args) :
    (painter.call name args one).1 =
        (painter.call name (args.map (Arg.rename shift.move)) two).1 ∧
      DrawingTwins painter shift (painter.call name args one).2
        (painter.call name (args.map (Arg.rename shift.move)) two).2 := by
  rcases planned with ⟨plan, follows⟩
  have same : (args.map (Arg.rename shift.move)).map (fun arg =>
      (arg.value, arg.cell?.isSome)) = args.map fun arg => (arg.value, arg.cell?.isSome) := by
    rw [List.map_map]
    apply List.map_congr_left
    intro arg _
    simp only [Function.comp_apply, Arg.rename, Option.isSome_map]
  rw [follows, follows, same]
  exact runPlan used _ drawing

end DrawingTwins

/-- Two states that drawing code reaches are those of twins. -/
def DrawnAlike (painter : Painter σ) (shift : CellShift)
    (one two : Store × Surroundings × Rig σ) : Prop :=
  DrawingTwins painter shift ⟨one.1, one.2.1, one.2.2⟩ ⟨two.1, two.2.1, two.2.2⟩

/-- Code that draws runs in twins as in a mirror. -/
theorem mirrors_drawingHost (planned : painter.Planned) (facts : Facts) :
    (drawingHost facts painter).Mirrors (drawingHost facts painter) shift.InUse shift.move
      (DrawnAlike painter shift) where
  get := fun drawing used => drawing.twins.store.get _ used
  readItem := fun position drawing => drawing.twins.store.readItem position
  set := fun value drawing used => drawing.withStore (drawing.twins.store.set used value)
  writeItem := fun position value drawing =>
    drawing.withStore (drawing.twins.store.writeItem position value)
  call := by
    intro one two name args drawing used
    rcases one with ⟨store, around, rig⟩
    rcases two with ⟨storeToo, aroundToo, rigToo⟩
    rw [drawingHost_call, drawingHost_call]
    split
    · next function _ =>
        rcases twins_run drawing.twins.state facts (fun _ => drawing.ready) function used with
          ⟨result, states⟩
        exact ⟨congrArg some result, ⟨states.store, states.around, drawing.twins.rig⟩,
          drawing.ready⟩
    · split
      · rcases drawing.call planned name used with ⟨result, done⟩
        exact ⟨congrArg some result, done⟩
      · exact ⟨rfl, drawing⟩

namespace Twins

theorem attach (twins : Twins painter shift one two) (surface : σ) :
    Twins painter shift (one.attach surface) (two.attach surface) := by
  have around := twins.around
  have drawing := twins.rig.drawing
  refine ⟨twins.store, ⟨around.masks, around.files, around.input, around.output, nofun⟩,
    { twins.rig with drawing := ?_ }⟩
  exact ⟨rfl, rfl, drawing.wantsRetina, drawing.isBusy, fun _ => rfl, fun _ => rfl⟩

theorem setKey (twins : Twins painter shift one two) (key : Nat) (pressed : Bool) :
    Twins painter shift (one.setKey key pressed) (two.setKey key pressed) := by
  have around := twins.around
  rw [Effect.setKey, Effect.setKey, ← twins.rig.drawing.isReady]
  split
  · next listens =>
      rw [Bool.and_eq_true] at listens
      rw [around.keyboard listens.1]
      exact twins.withAround ⟨around.masks, around.files, around.input, around.output,
        fun _ => rfl⟩
  · exact twins

theorem setMouse (twins : Twins painter shift one two) (modifiers : Nat) (x y : Int)
    (buttons : Nat) (wheel sideWheel : Float) :
    Twins painter shift (one.setMouse modifiers x y buttons wheel sideWheel)
      (two.setMouse modifiers x y buttons wheel sideWheel) := by
  rw [Effect.setMouse, Effect.setMouse, twins.rig.drawing.isReady]
  split
  · dsimp only
    rw [twins.store.read .mouseWheel, twins.store.read .mouseSideWheel]
    exact twins.withStore (twins.store.writeAll _)
  · exact twins

/-- Drawing is set up alike, whatever was on the surfaces before. -/
theorem setUpDrawing (twins : Twins painter shift one two) {first second : σ}
    (same : painter.reset first = painter.reset second) :
    DrawingTwins painter shift (one.setUpDrawing painter first)
      (two.setUpDrawing painter second) := by
  have around := twins.around
  have drawing := twins.rig.drawing
  rw [Effect.setUpDrawing, Effect.setUpDrawing, same]
  refine ⟨⟨twins.store.writeAll _, ⟨around.masks, around.files, around.input, around.output,
    fun _ => rfl⟩, { twins.rig with drawing := ?_ }⟩, rfl⟩
  exact ⟨rfl, rfl, drawing.wantsRetina, drawing.isBusy, fun _ => rfl, fun _ => rfl⟩

theorem setUpDueDrawing (twins : Twins painter shift one two) {first second : σ}
    (found : one.rig.drawing.surface? = some first)
    (foundToo : two.rig.drawing.surface? = some second) :
    DrawingTwins painter shift (one.setUpDueDrawing painter first)
      (two.setUpDueDrawing painter second) := by
  have drawing := twins.rig.drawing
  have same : painter.reset first = painter.reset second := by
    have reset := drawing.reset
    rw [found, foundToo] at reset
    exact Option.some.inj reset
  rw [Effect.setUpDueDrawing, Effect.setUpDueDrawing, ← drawing.isReady]
  cases ready : one.rig.drawing.isReady with
  | false =>
      rw [Bool.not_false, Bool.or_true, Bool.or_true, if_pos rfl, if_pos rfl]
      exact twins.setUpDrawing same
  | true =>
      rw [drawing.requested ready]
      split
      · exact twins.setUpDrawing same
      · exact ⟨twins, ready⟩

end Twins

theorem surface?_setUpDueDrawing {effect : Effect σ} {surface : σ}
    (found : effect.rig.drawing.surface? = some surface) :
    (effect.setUpDueDrawing painter surface).rig.drawing.surface?.isSome = true := by
  rw [setUpDueDrawing]
  split
  · rfl
  · rw [found]
    rfl

namespace DrawingTwins

theorem setBusy (drawing : DrawingTwins painter shift one two) (busy : Bool) :
    DrawingTwins painter shift (one.setBusy busy) (two.setBusy busy) := by
  have own := drawing.twins.rig.drawing
  refine ⟨⟨drawing.twins.store, drawing.twins.around,
    { drawing.twins.rig with drawing := ?_ }⟩, drawing.ready⟩
  exact ⟨own.reset, own.isReady, own.wantsRetina, rfl, own.surface, own.requested⟩

theorem tellSize (drawing : DrawingTwins painter shift one two) (surface : σ) :
    DrawingTwins painter shift (one.tellSize painter surface)
      (two.tellSize painter surface) := by
  rw [Effect.tellSize, Effect.tellSize, drawing.twins.rig.drawing.wantsRetina]
  exact drawing.withStore (drawing.twins.store.writeAll _)

theorem runDrawing (planned : painter.Planned) (drawing : DrawingTwins painter shift one two)
    {program : Program} (within : program.Within shift.InUse) :
    DrawingTwins painter shift (one.runDrawing painter program)
      (two.runDrawing painter (program.rename shift.move)) := by
  let busy := one.setBusy true
  let busyToo := two.setBusy true
  have begun : DrawnAlike painter shift (busy.store, busy.around, busy.rig)
      (busyToo.store, busyToo.around, busyToo.rig) := drawing.setBusy true
  have ran := Code.run_mirrors (mirrors_drawingHost planned one.facts) within begun
  rw [Effect.runDrawing, Effect.runDrawing, ← drawing.twins.facts]
  exact ran.setBusy false

theorem takeDirty (drawing : DrawingTwins painter shift one two) :
    (one.takeDirty painter).1 = (two.takeDirty painter).1 ∧
      DrawingTwins painter shift (one.takeDirty painter).2 (two.takeDirty painter).2 := by
  rw [Effect.takeDirty, Effect.takeDirty, drawing.surface]
  split
  · exact ⟨rfl, drawing.withSurface rfl⟩
  · exact ⟨rfl, drawing⟩

end DrawingTwins

/-- A drawing pass paints the same. -/
theorem Twins.runPass (planned : painter.Planned) (twins : Twins painter shift one two) :
    (one.runPass painter).1 = (two.runPass painter).1 ∧
      Twins painter shift (one.runPass painter).2 (two.runPass painter).2 := by
  have reset := twins.rig.drawing.reset
  rw [Effect.runPass, Effect.runPass, twins.program? .gfx]
  cases found : one.program? .gfx with
  | none => exact ⟨rfl, twins⟩
  | some program =>
  cases here : one.rig.drawing.surface? with
  | none =>
      rw [here, Option.map_none, eq_comm, Option.map_eq_none_iff] at reset
      rw [reset]
      exact ⟨rfl, twins⟩
  | some first =>
      rw [here, Option.map_some, eq_comm, Option.map_eq_some_iff] at reset
      rcases reset with ⟨second, hereToo, _⟩
      rw [hereToo]
      have ready := twins.setUpDueDrawing here hereToo
      rcases Option.isSome_iff_exists.mp (surface?_setUpDueDrawing here) with ⟨current, kept⟩
      have keptToo := ready.surface.symm.trans kept
      dsimp only [Option.map_some]
      rw [kept, keptToo]
      rcases ((ready.tellSize current).runDrawing planned (twins.within found)).takeDirty with
        ⟨dirty, done⟩
      exact ⟨dirty, done.twins⟩

theorem Twins.draw (planned : painter.Planned) (twins : Twins painter shift one two) :
    (one.draw painter).1 = (two.draw painter).1 ∧
      Twins painter shift (one.draw painter).2 (two.draw painter).2 := by
  rw [Effect.draw, Effect.draw, twins.hasInfo]
  split
  · exact twins.runPass planned
  · exact ⟨rfl, twins⟩

end Effect
end EffectHost

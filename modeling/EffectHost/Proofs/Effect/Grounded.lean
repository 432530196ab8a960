import EffectHost.Proofs.Code.Cells
import EffectHost.Proofs.Effect.Kinds
import EffectHost.Proofs.Effect.Lifecycle
import EffectHost.Proofs.Effect.Moments
import EffectHost.Proofs.Effect.Steps
import EffectHost.Proofs.Host.Variables
import EffectHost.Proofs.Midi.Forward
import EffectHost.Proofs.Midi.History
import EffectHost.Proofs.Script.Slots

/-!
# What can be relied on in every effect

Wherever an effect has been led, its code is that of a known script and has programs only
for sections that the script has, the sliders of the script know their slots, the cells of
the host are there, the MIDI input holds valid events and nothing else, and the output may
grow or not as the configuration says.
-/

namespace EffectHost

open HostFunction

namespace Store

theorem Hosted.of_sameShape {before after : Store} (hosted : before.Hosted)
    (shape : SameShape before after) : after.Hosted :=
  Nat.le_trans hosted (Nat.le_of_eq shape.cells.symm)

theorem Hosted.write {store : Store} (hosted : store.Hosted) (name : HostVariable)
    (value : Float) : (store.write name value).Hosted :=
  hosted.of_sameShape (sameShape_set store name.cell value)

end Store

/-- A rig still has its code and its script. -/
structure Rig.KeepsCode {σ : Type} (before after : Rig σ) : Prop where
  code : after.code = before.code
  sections : after.sections? = before.sections?
  drawingProgram : after.drawing.program? = before.drawing.program?
  script : after.script? = before.script?
  info : after.info? = before.info?

namespace Rig.KeepsCode

variable {σ : Type}

theorem refl (rig : Rig σ) : KeepsCode rig rig :=
  ⟨rfl, rfl, rfl, rfl, rfl⟩

theorem trans {first second third : Rig σ} (left : KeepsCode first second)
    (right : KeepsCode second third) : KeepsCode first third where
  code := right.code.trans left.code
  sections := right.sections.trans left.sections
  drawingProgram := right.drawingProgram.trans left.drawingProgram
  script := right.script.trans left.script
  info := right.info.trans left.info

theorem of_eq {before after : Rig σ} (same : after = before) : KeepsCode before after := by
  rw [same]
  exact refl before

theorem of_continues {before after : Rig σ} (same : before.Continues after) :
    KeepsCode before after :=
  ⟨same.code, same.sections, same.drawingProgram, same.script, same.info⟩

end Rig.KeepsCode

/-- The host neither runs a cycle nor sends an event. -/
def CycleAction.isQuiet : CycleAction → Bool
  | .process _ _ _ _ | .sendMidi _ => false
  | _ => true

namespace Effect

open Rig

variable {σ : Type} {painter : Painter σ} {config : Config}

/-- Cells are written and events taken at most.  The queue of events, the files, the keys and the
drawing side stay as they are. -/
structure OnlyTells (before after : Effect σ) : Prop where
  frame : Frame (before.store, before.around) (after.store, after.around)
  input : after.around.input = before.around.input
  files : after.around.files = before.around.files
  keyboard : after.around.keyboard = before.around.keyboard
  drawing : after.rig.drawing = before.rig.drawing

namespace OnlyTells

theorem of_shape {before after : Effect σ} (shape : Store.SameShape before.store after.store)
    (around : after.around = before.around) (drawing : after.rig.drawing = before.rig.drawing) :
    OnlyTells before after where
  frame := by
    rw [around]
    exact .of_shape shape before.around
  input := congrArg Surroundings.input around
  files := congrArg Surroundings.files around
  keyboard := congrArg Surroundings.keyboard around
  drawing := drawing

theorem refl (effect : Effect σ) : OnlyTells effect effect :=
  of_shape (.refl _) rfl rfl

theorem trans {first second third : Effect σ} (left : OnlyTells first second)
    (right : OnlyTells second third) : OnlyTells first third where
  frame := left.frame.trans right.frame
  input := right.input.trans left.input
  files := right.files.trans left.files
  keyboard := right.keyboard.trans left.keyboard
  drawing := right.drawing.trans left.drawing

theorem shape {before after : Effect σ} (tells : OnlyTells before after) :
    Store.SameShape before.store after.store :=
  tells.frame.shape

end OnlyTells

/-- Kept code has the same programs under the same numbers. -/
theorem programId?_of_keepsCode {before after : Effect σ}
    (keeps : before.rig.KeepsCode after.rig) : after.programId? = before.programId? := by
  funext kind
  rw [programId?, programId?, keeps.sections, keeps.drawingProgram]

theorem initIds_of_keepsCode {before after : Effect σ}
    (keeps : before.rig.KeepsCode after.rig) : after.initIds = before.initIds := by
  rw [initIds, initIds, keeps.sections]

theorem programOf_of_keepsCode {before after : Effect σ}
    (keeps : before.rig.KeepsCode after.rig) : after.programOf = before.programOf := by
  funext id
  rw [programOf, programOf, keeps.code]

/-- What can be relied on in every effect. -/
structure Grounded (config : Config) (effect : Effect σ) : Prop where
  /-- What there is to know of a script is told by the script. -/
  informed : effect.rig.info? = effect.rig.script?.map LoadedScript.info
  /-- Code belongs to a script, and its programs to sections of the script. -/
  compiled : effect.isCompiled = true → ∃ script, effect.rig.script? = some script ∧
    ∀ kind, kind ≠ .init → kind ≠ .gfx → (effect.programId? kind).isSome = true →
      script.has kind = true
  slotted : effect.header.Slotted
  hosted : effect.store.Hosted
  input : ∃ events, effect.around.input.Holds events
  output : effect.around.output.extensible = config.midiOutputExtensible

/-! ## While the code stays -/

theorem Grounded.of_keepsCode {before after : Effect σ} (grounded : before.Grounded config)
    (keeps : before.rig.KeepsCode after.rig)
    (cells : before.store.cells.size ≤ after.store.cells.size)
    (input : ∃ events, after.around.input.Holds events)
    (output : after.around.output.extensible = before.around.output.extensible) :
    after.Grounded config where
  informed := by
    rw [keeps.info, keeps.script]
    exact grounded.informed
  compiled := by
    rw [isCompiled, keeps.sections, keeps.script, programId?_of_keepsCode keeps]
    exact grounded.compiled
  slotted := by
    have same : after.header = before.header := by
      rw [header, header, keeps.info]
    rw [same]
    exact grounded.slotted
  hosted := Nat.le_trans grounded.hosted cells
  input := input
  output := output.trans grounded.output

/-- A step within the frame of running code leaves an effect grounded. -/
theorem Grounded.of_frame {before after : Effect σ} (grounded : before.Grounded config)
    (keeps : before.rig.KeepsCode after.rig)
    (frame : Frame (before.store, before.around) (after.store, after.around)) :
    after.Grounded config := by
  rcases grounded.input with ⟨events, holds⟩
  exact grounded.of_keepsCode keeps (Nat.le_of_eq frame.shape.cells.symm)
    ⟨events, holds.of_bytes frame.queued⟩ frame.output

theorem frame_codeRun (effect : Effect σ) (caller : Caller) (program : Program) :
    Frame (effect.store, effect.around)
      ((effect.run caller program).store, (effect.run caller program).around) := by
  have kept : (effect.codeHost caller).Preserves (Frame (effect.store, effect.around)) := by
    constructor
    · intro cell value store around before
      exact before.trans (Frame.of_shape (Store.sameShape_set store cell value) around)
    · intro position value store around before
      exact before.trans
        (Frame.of_shape (Store.sameShape_writeItem store position value) around)
    · intro name args state before
      exact before.trans (frame_call effect.facts caller name args state)
  exact Code.run_preserves kept program (effect.store, effect.around) (Frame.refl _)

theorem feedFrame_eq_writeAll (plan : ChannelPlan) (inputs : List Channel) (frame : Nat)
    (store : Store) :
    feedFrame plan inputs frame store =
      store.writeAll (((List.finRange channelVariables).take plan.declaredInputs).map
        fun channel => (.channel channel, plan.sampleAt inputs channel frame)) := by
  rw [feedFrame, Store.writeAll, List.foldl_map]

section DeclaredSliders

variable {header : Header} {P : Store → Prop}
  (kept : ∀ slot value store, (header.sliders.get slot).declared = true → P store →
    P (store.write (.slider slot) value))

include kept

/-- What holds however declared sliders are moved holds when they are reset. -/
theorem defaultSliders_preserves {store : Store} (start : P store) :
    P (defaultSliders store header) := by
  rw [defaultSliders]
  induction List.finRange sliderSlots generalizing store with
  | nil => exact start
  | cons slot others ih =>
      rw [List.foldl_cons]
      apply ih
      dsimp only
      split
      · next declared => exact kept slot _ store declared start
      · exact start

/-- What holds however declared sliders are moved holds when values are written to them. -/
theorem writeSliders_preserves {store : Store} (start : P store) (values : List SliderValue) :
    P (writeSliders store header values) := by
  induction values generalizing store with
  | nil => exact start
  | cons entry others ih =>
      rw [writeSliders, List.foldl_cons, ← writeSliders]
      apply ih
      split
      · split
        · next inside declared => exact kept ⟨_, inside⟩ _ store declared start
        · exact start
      · exact start

end DeclaredSliders

theorem sameShape_defaultSliders (store : Store) (header : Header) :
    Store.SameShape store (defaultSliders store header) :=
  defaultSliders_preserves (P := Store.SameShape store)
    (fun _ _ _ _ shape => shape.trans (Store.sameShape_set _ _ _)) (.refl store)

theorem sameShape_writeSliders (store : Store) (header : Header) (values : List SliderValue) :
    Store.SameShape store (writeSliders store header values) :=
  writeSliders_preserves (P := Store.SameShape store)
    (fun _ _ _ _ shape => shape.trans (Store.sameShape_set _ _ _)) (.refl store) values

theorem keepsCode_perform (effect : Effect σ) (step : Step) :
    effect.rig.KeepsCode (effect.perform step).rig := by
  cases step with
  | startInit =>
      rw [perform, rig_startInit]
      exact ⟨rfl, rfl, rfl, rfl, rfl⟩
  | _ => exact ⟨rfl, rfl, rfl, rfl, rfl⟩

theorem sameShape_startInit (effect : Effect σ) :
    Store.SameShape effect.store effect.startInit.store := by
  have prepared : Store.SameShape effect.store
      (if effect.rig.pending.isFresh then effect.prepareFresh else effect).store := by
    split
    · exact Store.sameShape_writeAll effect.store _
    · exact Store.SameShape.refl effect.store
  exact prepared.trans (Store.sameShape_set _ _ _)

/-- Every step leaves an effect grounded. -/
theorem grounded_perform {effect : Effect σ} (grounded : effect.Grounded config)
    (step : Step) : (effect.perform step).Grounded config := by
  have keeps := keepsCode_perform effect step
  have start := Store.SameShape.refl effect.store
  cases step with
  | begin => exact grounded.of_frame keeps ⟨Store.sameShape_set _ _ _, rfl, rfl⟩
  | passOn triggers =>
      have emptied := MidiLog.holds_clear effect.around.input
      exact grounded.of_keepsCode keeps (Nat.le_refl _) ⟨[], emptied⟩
        (MidiLog.extensible_pushAll _ _)
  | startInit =>
      have around : effect.startInit.around.input = effect.around.input ∧
          effect.startInit.around.output = effect.around.output := by
        rw [Effect.startInit]
        dsimp only
        split <;> exact ⟨rfl, rfl⟩
      refine grounded.of_frame keeps ⟨sameShape_startInit effect, ?_, ?_⟩
      · exact congrArg MidiLog.bytes around.1
      · exact congrArg MidiLog.extensible around.2
  | noteInit | noteMoves | noteSlider | beginSerialize mode data | endSerialize =>
      exact grounded.of_frame keeps ⟨start, rfl, rfl⟩
  | tell plan frames =>
      exact grounded.of_frame keeps ⟨Store.sameShape_writeAll _ _, rfl, rfl⟩
  | feed plan inputs frame =>
      refine grounded.of_frame keeps ⟨?_, rfl, rfl⟩
      simp only [perform, feedFrame_eq_writeAll]
      exact Store.sameShape_writeAll _ _
  | run caller id => exact grounded.of_frame keeps (frame_codeRun effect caller _)
  | clearInput =>
      exact grounded.of_keepsCode keeps (Nat.le_refl _)
        ⟨[], MidiLog.holds_clear effect.around.input⟩ rfl
  | restoreSliders values =>
      exact grounded.of_frame keeps
        ⟨(sameShape_defaultSliders _ _).trans (sameShape_writeSliders _ _ values), rfl, rfl⟩

theorem grounded_performAll {effect : Effect σ} (grounded : effect.Grounded config)
    (steps : List Step) : (effect.performAll steps).Grounded config := by
  induction steps generalizing effect with
  | nil => exact grounded
  | cons step others ih => exact ih (grounded_perform grounded step)

/-! ## Moments -/

theorem onlyTells_requestInit (effect : Effect σ) : OnlyTells effect effect.requestInit := by
  rw [requestInit]
  split
  · exact .of_shape (.refl _) rfl rfl
  · exact .refl effect

theorem onlyTells_takeMidi (effect : Effect σ) (reader : LogReader) :
    OnlyTells effect (effect.takeMidi (MidiLog.read? · reader)).2 := by
  rw [takeMidi]
  split
  · next event rest read =>
      exact ⟨⟨.refl _, rfl, (LogHistory.read?_keeps read).2.2⟩, rfl, rfl, rfl, rfl⟩
  · exact .refl effect

/-- Between cycles the host only tells and takes. -/
theorem onlyTells_actInCycle (effect : Effect σ) (action : CycleAction)
    (quiet : action.isQuiet = true) : OnlyTells effect (effect.actInCycle action) := by
  cases action with
  | process precision inputs outputs frames => cases quiet
  | sendMidi event => cases quiet
  | setSlider index value | setSliderFromDrawing index value =>
      simp only [actInCycle, setSlider, setSliderFromDrawing, moveSlider]
      split
      · exact .of_shape (Store.sameShape_set _ _ _) rfl rfl
      · exact .refl effect
  | fetchChanges | fetchAutomations => exact ⟨⟨.refl _, rfl, rfl⟩, rfl, rfl, rfl, rfl⟩
  | setBlockSize size =>
      rw [actInCycle, setBlockSize]
      split
      · exact .refl effect
      · apply OnlyTells.trans _ (onlyTells_requestInit _)
        exact .of_shape (.refl _) rfl rfl
  | setSampleRate rate =>
      rw [actInCycle, setSampleRate]
      split
      · exact .refl effect
      · apply OnlyTells.trans _ (onlyTells_requestInit _)
        exact .of_shape (.refl _) rfl rfl
  | setTime time =>
      rw [actInCycle, setTime]
      dsimp only
      split
      · exact (onlyTells_requestInit effect).trans
          (.of_shape (Store.sameShape_writeAll _ _) rfl rfl)
      · exact .of_shape (Store.sameShape_writeAll _ _) rfl rfl
  | receiveMidi => exact onlyTells_takeMidi effect .common
  | receiveMidiOnBus bus => exact onlyTells_takeMidi effect (.onBus bus)
  | sendTrigger index =>
      rw [actInCycle, sendTrigger]
      split
      · exact .of_shape (.refl _) rfl rfl
      · exact .refl effect

theorem grounded_actInCycle {effect : Effect σ} (grounded : effect.Grounded config)
    (action : CycleAction) : (effect.actInCycle action).Grounded config := by
  have keeps := KeepsCode.of_continues (continues_actInCycle effect action)
  cases action with
  | process precision inputs outputs frames =>
      rw [actInCycle, process_eq_performAll]
      exact grounded_performAll grounded _
  | sendMidi event =>
      rcases grounded.input with ⟨events, holds⟩
      rcases holds.push event with ⟨more, pushed⟩
      exact grounded.of_keepsCode keeps (Nat.le_refl _) ⟨events ++ more, pushed⟩ rfl
  | _ => exact grounded.of_frame keeps (onlyTells_actInCycle effect _ rfl).frame

/-- No moment takes the code away. -/
theorem keepsCode_moment (painter : Painter σ) (effect : Effect σ) (next : Moment σ) :
    effect.rig.KeepsCode (effect.moment painter next).rig := by
  cases next with
  | cycle action => exact KeepsCode.of_continues (continues_actInCycle effect action)
  | saveState => exact KeepsCode.of_continues (continues_saveState effect)
  | loadState state => exact KeepsCode.of_continues (continues_loadState effect state)
  | setKey key pressed => exact KeepsCode.of_eq (rig_setKey effect key pressed)
  | setMouse modifiers x y buttons wheel sideWheel =>
      exact KeepsCode.of_eq (rig_setMouse effect modifiers x y buttons wheel sideWheel)
  | beginPass surface =>
      have setUp := continues_setUpDueDrawing effect painter surface
      exact ⟨setUp.code, setUp.sections, setUp.drawingProgram, setUp.script, setUp.info⟩
  | endPass =>
      have freed : effect.rig.KeepsCode (effect.setBusy false).rig :=
        ⟨rfl, rfl, rfl, rfl, rfl⟩
      exact freed.trans (KeepsCode.of_continues (continues_takeDirty _ painter))
  | attach surface | changeDisk disk | paint change => exact ⟨rfl, rfl, rfl, rfl, rfl⟩
  | assign cell value | writeItem position value | writeRange address values
  | setString id text | call facts function args => exact KeepsCode.refl effect.rig

theorem keepsCode_through (painter : Painter σ) (effect : Effect σ)
    (moments : List (Moment σ)) :
    effect.rig.KeepsCode (effect.through painter moments).rig := by
  induction moments generalizing effect with
  | nil => exact KeepsCode.refl effect.rig
  | cons next others ih => exact (keepsCode_moment painter effect next).trans (ih _)

theorem sameShape_beginPass (painter : Painter σ) (effect : Effect σ) (surface : σ) :
    Store.SameShape effect.store (effect.moment painter (.beginPass surface)).store := by
  have setUp : Store.SameShape effect.store (effect.setUpDueDrawing painter surface).store := by
    rw [setUpDueDrawing]
    split
    · exact Store.sameShape_writeAll effect.store _
    · exact Store.SameShape.refl effect.store
  exact setUp.trans (Store.sameShape_writeAll _ _)

theorem around_beginPass (painter : Painter σ) (effect : Effect σ) (surface : σ) :
    let begun := effect.moment painter (.beginPass surface)
    begun.around.input = effect.around.input ∧ begun.around.output = effect.around.output := by
  simp only [moment, setBusy, updateDrawing, tellSize, setUpDueDrawing]
  split <;> exact ⟨rfl, rfl⟩

/-- Every moment leaves an effect grounded. -/
theorem grounded_moment {effect : Effect σ} (grounded : effect.Grounded config)
    (next : Moment σ) : (effect.moment painter next).Grounded config := by
  have keeps := keepsCode_moment painter effect next
  have start := Store.SameShape.refl effect.store
  cases next with
  | cycle action => exact grounded_actInCycle grounded action
  | saveState =>
      rw [moment, saveState_eq_performAll]
      exact grounded_performAll grounded _
  | loadState state =>
      rw [moment, loadState_eq_performAll]
      exact grounded_performAll grounded _
  | attach surface | changeDisk disk | paint change =>
      exact grounded.of_frame keeps ⟨start, rfl, rfl⟩
  | setKey key pressed =>
      apply grounded.of_frame keeps
      simp only [moment, setKey]
      split <;> exact ⟨start, rfl, rfl⟩
  | setMouse modifiers x y buttons wheel sideWheel =>
      apply grounded.of_frame keeps
      simp only [moment, setMouse]
      split
      · exact ⟨Store.sameShape_writeAll _ _, rfl, rfl⟩
      · exact Frame.refl _
  | beginPass surface =>
      rcases around_beginPass painter effect surface with ⟨input, output⟩
      apply grounded.of_frame keeps
      exact ⟨sameShape_beginPass painter effect surface, congrArg MidiLog.bytes input,
        congrArg MidiLog.extensible output⟩
  | endPass =>
      apply grounded.of_frame keeps
      simp only [moment, takeDirty]
      split <;> exact ⟨start, rfl, rfl⟩
  | assign cell value => exact grounded.of_frame keeps ⟨Store.sameShape_set _ _ _, rfl, rfl⟩
  | writeItem position value =>
      exact grounded.of_frame keeps ⟨Store.sameShape_writeItem _ _ _, rfl, rfl⟩
  | writeRange address values =>
      exact grounded.of_frame keeps ⟨Store.sameShape_writeRange _ _ _, rfl, rfl⟩
  | setString id text =>
      exact grounded.of_frame keeps ⟨Store.sameShape_setString _ _ _, rfl, rfl⟩
  | call facts function args =>
      exact grounded.of_frame keeps
        (frame_run facts drawingCaller function args (effect.store, effect.around))

/-! ## Loading and compiling -/

theorem grounded_new (disk : Disk) (config : Config) :
    (Effect.new disk config : Effect σ).Grounded config where
  informed := rfl
  compiled := nofun
  slotted := Header.slotted_empty
  hosted := Store.hosted_hosted
  input := ⟨[], rfl, List.forall_mem_nil _⟩
  output := rfl

theorem grounded_unloadCode {effect : Effect σ} (grounded : effect.Grounded config) :
    effect.unloadCode.Grounded config where
  informed := grounded.informed
  compiled := nofun
  slotted := grounded.slotted
  hosted := by
    rw [Store.Hosted, store_unloadCode]
    exact grounded.hosted
  input := grounded.input
  output := grounded.output

theorem grounded_unload {effect : Effect σ} (grounded : effect.Grounded config) :
    effect.unload.Grounded config where
  informed := rfl
  compiled := nofun
  slotted := Header.slotted_empty
  hosted := (grounded_unloadCode grounded).hosted
  input := grounded.input
  output := grounded.output

theorem grounded_load {effect : Effect σ} (grounded : effect.Grounded config) (path : String)
    (ignoreImports : Bool) : (effect.load path ignoreImports).effect.Grounded config := by
  have emptied := grounded_unload grounded
  rw [load]
  split
  · next script reports loaded =>
      have hosted : Store.Hosted (defaultSliders effect.unload.store script.header) := by
        rw [Store.Hosted, (sameShape_defaultSliders _ _).cells]
        exact emptied.hosted
      exact ⟨rfl, fun never => absurd never Bool.false_ne_true,
        LoadedScript.slotted_of_load loaded, hosted, emptied.input,
        emptied.output⟩
  · exact emptied

/-- Compiled code belongs to a known script. -/
theorem Grounded.hasInfo {effect : Effect σ} (grounded : effect.Grounded config)
    (compiled : effect.isCompiled = true) : effect.hasInfo = true := by
  rcases grounded.compiled compiled with ⟨script, known, _⟩
  rw [Effect.hasInfo, grounded.informed, known]
  rfl

/-- A program of a kind of which there is one at most comes from a section of that kind. -/
theorem has_of_single? {script : LoadedScript} {options : CompileOptions}
    {sections : CompiledSections} {kind : SectionKind}
    (kinds : sections.programs.map Prod.fst =
      (script.sectionsToCompile options).map Section.kind)
    (notInit : kind ≠ .init) (found : (sections.single? kind).isSome = true) :
    script.has kind = true := by
  rcases Option.isSome_iff_exists.mp found with ⟨id, first⟩
  have entry := CompiledSections.mem_programs_of_mem_ofKind (List.mem_of_head? first)
  have compiled : kind ∈ (script.sectionsToCompile options).map Section.kind := by
    rw [← kinds]
    exact List.mem_map_of_mem entry
  rcases List.mem_map.mp compiled with ⟨part, member, rfl⟩
  rw [LoadedScript.has, LoadedScript.section?_of_mem_sectionsToCompile member notInit]
  rfl

theorem grounded_compile {effect : Effect σ} (grounded : effect.Grounded config)
    (options : CompileOptions) : (effect.compile options).effect.Grounded config := by
  have emptied := grounded_unloadCode grounded
  rw [compile]
  split
  · next script info known informed =>
      have counted := CompiledSections.cellCount_le_compile info.aliases.cell? script options
        effect.unloadCode.machine
      split
      · next sections machine compiled =>
          rw [compiled] at counted
          have kinds := (CompiledSections.compile_ok compiled).2
          refine ⟨emptied.informed, fun _ => ⟨script, known, ?_⟩, emptied.slotted, ?_,
            emptied.input, emptied.output⟩
          · intro kind notInit notDrawing found
            rw [programId?_installCode _ _ notDrawing] at found
            exact has_of_single? kinds notInit found
          · rw [Store.Hosted]
            change _ ≤ ((machine.freeAll _).store.cells).size
            rw [Machine.store_freeAll]
            exact Nat.le_trans emptied.hosted counted
      · next failure machine stopped =>
          rw [stopped] at counted
          exact ⟨emptied.informed, fun never => absurd never Bool.false_ne_true, emptied.slotted,
            Nat.le_trans emptied.hosted counted, emptied.input, emptied.output⟩
  · exact emptied

/-- Wherever an effect has been led, it is grounded. -/
theorem Reached.grounded {effect : Effect σ} (reached : Reached painter config effect) :
    effect.Grounded config := by
  induction reached with
  | new disk => exact grounded_new disk config
  | load before path ignoreImports ih => exact grounded_load ih path ignoreImports
  | compile before options ih => exact grounded_compile ih options
  | unloadCode before ih => exact grounded_unloadCode ih
  | unload before ih => exact grounded_unload ih
  | moment before next ih => exact grounded_moment ih next

theorem result_of_isOk {attempt : Attempt σ} (ok : attempt.result.isOk = true) :
    attempt.result = .ok () := by
  cases answer : attempt.result with
  | ok => rfl
  | error failure =>
      rw [answer] at ok
      cases ok

end Effect
end EffectHost

import EffectHost.Proofs.Code.Registered
import EffectHost.Proofs.Effect.Grounded
import EffectHost.Proofs.Host.UsedLogs

/-!
# What lasts

Wherever an effect has been led, it has the configuration with which it was made, the names
of the host are registered, and its logs have come about by use of those that it began with.
-/

namespace EffectHost
namespace Effect

open Rig HostFunction Surroundings

variable {σ : Type} {painter : Painter σ} {config : Config}

/-- The configuration is the same, and the logs come from those before. -/
structure Continued (before after : Effect σ) : Prop where
  config : after.rig.config = before.rig.config
  logs : before.around.LogsFrom after.around

namespace Continued

theorem refl (effect : Effect σ) : Continued effect effect :=
  ⟨rfl, .refl _⟩

theorem trans {first second third : Effect σ} (left : Continued first second)
    (right : Continued second third) : Continued first third :=
  ⟨right.config.trans left.config, left.logs.trans right.logs⟩

/-- Nothing has happened to the logs. -/
theorem of_eq {before after : Effect σ} (config : after.rig.config = before.rig.config)
    (input : after.around.input = before.around.input)
    (output : after.around.output = before.around.output) : Continued before after :=
  ⟨config, .of_eq input output⟩

end Continued

/-! ## While the code stays -/

theorem continued_run (effect : Effect σ) (caller : Caller) (program : Program) :
    Continued effect (effect.run caller program) := by
  have kept : (effect.codeHost caller).Preserves fun state =>
      effect.around.LogsFrom state.2 := by
    refine ⟨fun _ _ _ _ before => before, fun _ _ _ _ before => before, ?_⟩
    intro name args state before
    simp only [codeHost, HostFunction.call]
    split
    · exact before.trans (logsFrom_run effect.facts caller _ args state)
    · exact before
  exact ⟨rfl, Code.run_preserves kept program (effect.store, effect.around) (.refl _)⟩

theorem continued_perform (effect : Effect σ) (step : Step) :
    Continued effect (effect.perform step) := by
  cases step with
  | begin =>
      exact ⟨rfl, MidiLog.leadsTo_rewind _, MidiLog.leadsTo_clear _⟩
  | passOn triggers =>
      exact ⟨rfl, MidiLog.leadsTo_clear _, MidiLog.leadsTo_pushAll _ _⟩
  | startInit =>
      rw [perform, startInit]
      dsimp only
      split <;> exact .of_eq rfl rfl rfl
  | run caller id => exact continued_run effect caller _
  | clearInput => exact ⟨rfl, MidiLog.leadsTo_clear _, .refl _⟩
  | noteInit | noteMoves | noteSlider | tell plan frames | feed plan inputs frame
  | beginSerialize mode data | endSerialize | restoreSliders values =>
      exact .of_eq rfl rfl rfl

theorem continued_performAll (effect : Effect σ) (steps : List Step) :
    Continued effect (effect.performAll steps) := by
  induction steps generalizing effect with
  | nil => exact .refl effect
  | cons step others ih => exact (continued_perform effect step).trans (ih _)

theorem continued_requestInit (effect : Effect σ) : Continued effect effect.requestInit := by
  rw [requestInit]
  split <;> exact .of_eq rfl rfl rfl

theorem continued_takeMidi (effect : Effect σ) (reader : LogReader) :
    Continued effect (effect.takeMidi (MidiLog.read? · reader)).2 := by
  rw [takeMidi]
  split
  · next event rest read => exact ⟨rfl, .refl _, MidiLog.leadsTo_of_read? read⟩
  · exact .refl effect

theorem continued_actInCycle (effect : Effect σ) (action : CycleAction) :
    Continued effect (effect.actInCycle action) := by
  cases action with
  | process precision inputs outputs frames =>
      rw [actInCycle, process_eq_performAll]
      exact continued_performAll effect _
  | setSlider index value | setSliderFromDrawing index value =>
      simp only [actInCycle, setSlider, setSliderFromDrawing, moveSlider]
      split <;> exact .of_eq rfl rfl rfl
  | fetchChanges | fetchAutomations => exact .of_eq rfl rfl rfl
  | setBlockSize size =>
      rw [actInCycle, setBlockSize]
      split
      · exact .refl effect
      · apply Continued.trans _ (continued_requestInit _)
        exact .of_eq rfl rfl rfl
  | setSampleRate rate =>
      rw [actInCycle, setSampleRate]
      split
      · exact .refl effect
      · apply Continued.trans _ (continued_requestInit _)
        exact .of_eq rfl rfl rfl
  | setTime time =>
      rw [actInCycle, setTime]
      dsimp only
      split
      · exact (continued_requestInit effect).trans (.of_eq rfl rfl rfl)
      · exact .of_eq rfl rfl rfl
  | sendMidi event => exact ⟨rfl, MidiLog.leadsTo_push _ event, .refl _⟩
  | receiveMidi => exact continued_takeMidi effect .common
  | receiveMidiOnBus bus => exact continued_takeMidi effect (.onBus bus)
  | sendTrigger index =>
      rw [actInCycle, sendTrigger]
      split <;> exact .of_eq rfl rfl rfl

theorem continued_moment (painter : Painter σ) (effect : Effect σ) (next : Moment σ) :
    Continued effect (effect.moment painter next) := by
  cases next with
  | cycle action => exact continued_actInCycle effect action
  | saveState =>
      rw [moment, saveState_eq_performAll]
      exact continued_performAll effect _
  | loadState state =>
      rw [moment, loadState_eq_performAll]
      exact continued_performAll effect _
  | setKey key pressed =>
      rw [moment, setKey]
      split <;> exact .of_eq rfl rfl rfl
  | setMouse modifiers x y buttons wheel sideWheel =>
      rw [moment, setMouse]
      split <;> exact .of_eq rfl rfl rfl
  | beginPass surface =>
      simp only [moment, setBusy, updateDrawing, tellSize, setUpDueDrawing]
      split <;> exact .of_eq rfl rfl rfl
  | endPass =>
      simp only [moment, takeDirty]
      split <;> exact .of_eq rfl rfl rfl
  | call facts function args =>
      exact ⟨rfl, logsFrom_run facts drawingCaller function args (effect.store, effect.around)⟩
  | attach surface | changeDisk disk | paint change | assign cell value
  | writeItem position value | writeRange address values | setString id text =>
      exact .of_eq rfl rfl rfl

/-! ## All effects that there can be -/

/-- What an effect has had from the beginning. -/
structure Lasting (config : Config) (effect : Effect σ) : Prop where
  configured : effect.rig.config = config
  registers : effect.machine.Registers
  input : (MidiLog.new config.midiCapacity true).LeadsTo effect.around.input
  output : (MidiLog.new config.midiCapacity config.midiOutputExtensible).LeadsTo
    effect.around.output

theorem registers_released {effect : Effect σ} (registers : effect.machine.Registers) :
    ((effect.machine.freeAll effect.rig.drawing.program?.toList).freeAll
      (effect.rig.sections?.getD {}).ids).Registers :=
  (registers.of_keepsNames (Machine.keepsNames_keptByCompiling.freeAll _ _)).of_keepsNames
    (Machine.keepsNames_keptByCompiling.freeAll _ _)

theorem registers_unloadCode {effect : Effect σ} (registers : effect.machine.Registers) :
    effect.unloadCode.machine.Registers :=
  Machine.registers_reset (registers_released registers)

theorem Lasting.unloadCode {effect : Effect σ} (lasting : effect.Lasting config) :
    effect.unloadCode.Lasting config :=
  ⟨lasting.configured, registers_unloadCode lasting.registers, lasting.input, lasting.output⟩

theorem Lasting.load {effect : Effect σ} (lasting : effect.Lasting config) (path : String)
    (ignoreImports : Bool) : (effect.load path ignoreImports).effect.Lasting config := by
  have emptied := lasting.unloadCode
  have names := emptied.registers
  rw [Effect.load]
  split <;> exact ⟨emptied.configured, ⟨names.names, names.registered⟩, emptied.input,
    emptied.output⟩

theorem Lasting.compile {effect : Effect σ} (lasting : effect.Lasting config)
    (options : CompileOptions) : (effect.compile options).effect.Lasting config := by
  have emptied := lasting.unloadCode
  rw [Effect.compile]
  split
  · next script info _ _ =>
      have names := CompiledSections.registers_compile info.aliases.cell? script options
        emptied.registers
      split
      · next compiled =>
          rw [compiled] at names
          exact ⟨emptied.configured,
            names.of_keepsNames (Machine.keepsNames_keptByCompiling.freeAll _ _),
            emptied.input, emptied.output⟩
      · next failed =>
          rw [failed] at names
          exact ⟨emptied.configured, names, emptied.input, emptied.output⟩
  · exact emptied

theorem Lasting.moment {effect : Effect σ} (lasting : effect.Lasting config)
    (painter : Painter σ) (next : Moment σ) :
    (effect.moment painter next).Lasting config := by
  have continued := continued_moment painter effect next
  have code := (keepsCode_moment painter effect next).code
  have names := lasting.registers
  refine ⟨continued.config.trans lasting.configured, ?_, lasting.input.trans continued.logs.input,
    lasting.output.trans continued.logs.output⟩
  constructor
  · change ∀ name cell, _ → (effect.moment painter next).rig.code.names[name]? = some cell
    rw [code]
    exact names.names
  · change (effect.moment painter next).rig.code.registered = _
    rw [code]
    exact names.registered

/-- Wherever an effect has been led, it has what it had from the beginning. -/
theorem Reached.lasting {effect : Effect σ} (reached : Reached painter config effect) :
    effect.Lasting config := by
  induction reached with
  | new disk => exact ⟨rfl, Machine.registers_hosted, .refl _, .refl _⟩
  | load before path ignoreImports ih => exact ih.load path ignoreImports
  | compile before options ih => exact ih.compile options
  | unloadCode before ih => exact ih.unloadCode
  | unload before ih =>
      have emptied := ih.unloadCode
      exact ⟨emptied.configured, emptied.registers, emptied.input, emptied.output⟩
  | moment before next ih => exact ih.moment painter next

end Effect
end EffectHost

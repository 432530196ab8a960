import EffectHost.Effect.Basic

/-!
# Settings and messages

Between cycles the host moves sliders, changes the block size and the sample rate,
tells the transport, queues MIDI events and raises triggers.  Whatever the script has to
react to is noted as work for the next cycle.
-/

namespace EffectHost
namespace Effect

variable {σ : Type}

/-! ## Sliders -/

/-- The value of a slider; zero past the last slot. -/
def sliderValue (effect : Effect σ) (index : Nat) : Float :=
  if h : index < sliderSlots then effect.store.read (.slider ⟨index, h⟩) else 0.0

/-- Move a slider, leaving a note. -/
def moveSlider (effect : Effect σ) (index : Nat) (value : Float)
    (note : PendingWork → PendingWork) : Effect σ :=
  if h : index < sliderSlots then
    { effect with store := effect.store.write (.slider ⟨index, h⟩) value }.updatePending note
  else effect

/-- Move a slider from the audio side. -/
def setSlider (effect : Effect σ) (index : Nat) (value : Float) : Effect σ :=
  effect.moveSlider index value fun pending => { pending with slider := true }

/-- Move a slider from the drawing side. -/
def setSliderFromDrawing (effect : Effect σ) (index : Nat) (value : Float) : Effect σ :=
  effect.moveSlider index value fun pending => { pending with sliderMoved := true }

/-- Take the announced changes. -/
def fetchChanges (effect : Effect σ) : Mask × Effect σ :=
  let masks := effect.around.masks
  (masks.changed,
    { effect with around := { effect.around with masks := { masks with changed := Mask.empty } } })

/-- Take the announced automations. -/
def fetchAutomations (effect : Effect σ) : Mask × Effect σ :=
  let masks := effect.around.masks
  (masks.automated,
    { effect with
      around := { effect.around with masks := { masks with automated := Mask.empty } } })

/-! ## Timing -/

/-- Let compiled code initialize again. -/
def requestInit (effect : Effect σ) : Effect σ :=
  if effect.isCompiled then effect.updatePending fun pending => { pending with init := true }
  else effect

/-- Announce another block size. -/
def setBlockSize (effect : Effect σ) (size : Nat) : Effect σ :=
  if effect.rig.blockSize = size then effect
  else { effect with rig := { effect.rig with blockSize := size } }.requestInit

/-- Announce another sample rate. -/
def setSampleRate (effect : Effect σ) (rate : Float) : Effect σ :=
  if effect.rig.sampleRate == rate then effect
  else { effect with rig := { effect.rig with sampleRate := rate } }.requestInit

/-- Tell the transport.  The start of playback lets the script initialize again, unless
it does without. -/
def setTime (effect : Effect σ) (time : TimeInfo) : Effect σ :=
  let starts := effect.rig.time.state.starts time.state
  let requested :=
    if starts && effect.store.read .noInit == 0.0 then effect.requestInit else effect
  { requested with
    store := requested.store.applyTime time
    rig := { requested.rig with time := time } }

/-! ## MIDI and triggers -/

/-- Queue an event for the next cycle. -/
def sendMidi (effect : Effect σ) (event : MidiEvent) : Bool × Effect σ :=
  let pushed := effect.around.input.push event
  (pushed.1, { effect with around := { effect.around with input := pushed.2 } })

/-- Take an event of the last cycle. -/
def takeMidi (effect : Effect σ) (next? : MidiLog → Option (MidiEvent × MidiLog)) :
    Option MidiEvent × Effect σ :=
  match next? effect.around.output with
  | some (event, rest) =>
    (some event, { effect with around := { effect.around with output := rest } })
  | none => (none, effect)

/-- Take the next event of the last cycle. -/
def receiveMidi (effect : Effect σ) : Option MidiEvent × Effect σ :=
  effect.takeMidi MidiLog.next?

/-- Take the next event of the last cycle on a bus. -/
def receiveMidiOnBus (effect : Effect σ) (bus : UInt32) : Option MidiEvent × Effect σ :=
  effect.takeMidi fun log => log.nextOnBus? bus

/-- Number of triggers. -/
def triggerCount : Nat := 10

/-- Raise a trigger for the next cycle. -/
def sendTrigger (effect : Effect σ) (index : Nat) : Bool × Effect σ :=
  if index < triggerCount then
    (true, effect.updatePending fun pending =>
      { pending with triggers := pending.triggers.union (Mask.single index) })
  else (false, effect)

/-! ## Latency -/

/-- The delay that the script declares, in frames. -/
def latency (effect : Effect σ) : Float :=
  let delay := effect.store.read .delay
  if 0.0 < delay then delay else 0.0

/-- A channel number that a script gives. -/
def channelNumber (value : Float) : Nat :=
  (Number.truncate 0 channelVariables value).toNat

/-- The first channel to which the delay applies, and the one behind the last. -/
def latencyChannels (effect : Effect σ) : Nat × Nat :=
  let bottom := channelNumber (effect.store.read .delayBottom)
  (bottom, max bottom (channelNumber (effect.store.read .delayTop)))

/-- The delay applies to MIDI, too. -/
def delaysMidi (effect : Effect σ) : Bool :=
  effect.store.read .delayMidi != 0.0

end Effect
end EffectHost

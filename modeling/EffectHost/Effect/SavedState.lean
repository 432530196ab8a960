import EffectHost.Effect.Lifecycle
import EffectHost.Effect.Process
import EffectHost.Effect.Settings
import EffectHost.Preset.State

/-!
# Saving and restoring

The state of an effect is the values of its declared sliders and the data that the
serialize section of the script writes.  When a state is restored the same section reads
the data back.
-/

namespace EffectHost
namespace Effect

variable {σ : Type}

/-- Run the serialize section, if there is one; init sections that are due run before. -/
def runSerialize (effect : Effect σ) : Effect σ :=
  if (effect.programId? .serialize).isSome then
    let ready := effect.runDueInit
    if ready.hasInfo then ready.runSection serializeCaller .serialize else ready
  else effect

/-- Put the serializer into a mode, with data to read. -/
def beginSerialize (effect : Effect σ) (mode : SerializeMode) (data : ByteArray) : Effect σ :=
  { effect with
    around := { effect.around with files := effect.around.files.beginSerialize mode data } }

/-- Take what the serializer holds, and leave it idle. -/
def endSerialize (effect : Effect σ) : ByteArray × Effect σ :=
  let ended := effect.around.files.endSerialize
  (ended.1, { effect with around := { effect.around with files := ended.2 } })

/-- Run the serialize section while the serializer is in a mode, and take what it holds
afterwards. -/
def serialize (effect : Effect σ) (mode : SerializeMode) (data : ByteArray) :
    ByteArray × Effect σ :=
  (effect.beginSerialize mode data).runSerialize.endSerialize

/-- The values of the declared sliders. -/
def sliderValues (effect : Effect σ) : List SliderValue :=
  effect.header.declaredSliders.map fun slider =>
    ⟨UInt32.ofNat slider.slot, effect.sliderValue slider.slot⟩

/-- Save the state, if the script is compiled. -/
def saveState (effect : Effect σ) : Option EffectState × Effect σ :=
  if effect.isCompiled then
    let done := effect.serialize .writing ByteArray.empty
    if done.2.hasInfo then (some { sliders := done.2.sliderValues, data := done.1 }, done.2)
    else (none, done.2)
  else (none, effect)

/-- Set the sliders that a script declares among some values. -/
def writeSliders (store : Store) (header : Header) (values : List SliderValue) : Store :=
  values.foldl (fun store entry =>
    if h : entry.slot.toNat < sliderSlots then
      if header.sliders[entry.slot.toNat].declared then
        store.write (.slider ⟨entry.slot.toNat, h⟩) entry.value
      else store
    else store) store

/-- Restore a state.  Declared sliders that it does not mention get their defaults.  The
result tells whether the script is compiled; if it is not, nothing is changed. -/
def loadState (effect : Effect σ) (state : EffectState) : Bool × Effect σ :=
  if effect.isCompiled && effect.hasInfo then
    let moved := { effect with
      store := writeSliders (defaultSliders effect.store effect.header) effect.header
        state.sliders }
    let noted := moved.updatePending fun pending => { pending with slider := true }
    (true, (noted.serialize .reading state.data).2)
  else (false, effect)

end Effect
end EffectHost

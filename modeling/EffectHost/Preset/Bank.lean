import EffectHost.Preset.State
import EffectHost.Script.Slider

/-!
# Preset banks

A bank is a named list of presets, each with a name and a state.  In its text form
every preset is one block of Base64, and in that block the slider values are words, one
for each slot, in front of a zero byte and the data.
-/

namespace EffectHost

open Text Number

/-- One preset. -/
structure Preset where
  name : String
  state : EffectState

/-- A bank of presets. -/
structure Bank where
  name : String
  presets : List Preset := []

/-- The first preset of a name. -/
def Bank.find? (bank : Bank) (name : String) : Option Preset :=
  bank.presets.find? (fun preset => preset.name == name)

namespace Preset

/-- The word of a slot without a slider. -/
def absentWord : String := "-"

/-- The last value that a state gives to a slot. -/
def valueAt? (state : EffectState) (slot : Nat) : Option Float :=
  (state.sliders.reverse.find? (fun entry => entry.slot.toNat == slot)).map SliderValue.value

/-- The words of all slots. -/
def slotWords (state : EffectState) : List String :=
  (List.range sliderSlots).map fun slot =>
    match valueAt? state slot with
    | some value => plainText value
    | none => absentWord

end Preset
end EffectHost

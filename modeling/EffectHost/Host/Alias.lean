import EffectHost.Host.Variable
import EffectHost.Script.Header

/-!
# Names of sliders

In script code the variable name of a declared slider denotes the slider's cell, whatever
else the name might mean.  The case of ASCII letters does not count, and of several
sliders with one name the last has it.
-/

namespace EffectHost

/-- Slider names in small letters, with their slots. -/
structure SliderAliases where
  entries : List (String × Nat) := []
deriving DecidableEq, Repr

namespace SliderAliases

/-- Name a slider.  A name that is taken changes hands. -/
def add (aliases : SliderAliases) (name : String) (slot : Nat) : SliderAliases :=
  let key := Text.asciiLower name
  ⟨(key, slot) :: aliases.entries.filter (fun entry => entry.1 != key)⟩

/-- The names that a header gives to its sliders. -/
def ofHeader (header : Header) : SliderAliases :=
  header.declaredSliders.foldl
    (fun aliases slider => aliases.add slider.variableName slider.slot) {}

/-- The slot of a name. -/
def slot? (aliases : SliderAliases) (name : String) : Option Nat :=
  aliases.entries.lookup (Text.asciiLower name)

/-- The cell that a name denotes in code. -/
def cell? (aliases : SliderAliases) (name : String) : Option Cell := do
  let slot ← aliases.slot? name
  if h : slot < sliderSlots then some (HostVariable.slider ⟨slot, h⟩).cell else none

end SliderAliases
end EffectHost

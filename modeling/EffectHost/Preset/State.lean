import EffectHost.Bytes.Words
import EffectHost.Number.Binary

/-!
# State of an effect

A saved state holds the values of the sliders and the data that the script wrote for
itself.  Its binary form is a count, one slot and one single precision value for each
slider, and the data up to the end.
-/

namespace EffectHost

open Bytes Number

/-- The value of one slider. -/
structure SliderValue where
  slot : UInt32
  value : Float

/-- A saved state. -/
structure EffectState where
  sliders : List SliderValue := []
  data : ByteArray := ByteArray.empty

namespace EffectState

/-- The binary form of one slider. -/
def sliderBytes (entry : SliderValue) : List UInt8 :=
  ofWord entry.slot ++ ofWord (narrow entry.value)

/-- The binary form of a state. -/
def toBytes (state : EffectState) : ByteArray :=
  pack (ofWord (UInt32.ofNat state.sliders.length) ++ state.sliders.flatMap sliderBytes) ++
    state.data

/-- Read `count` sliders in front of a byte list. -/
def takeSliders? : Nat → List UInt8 → Option (List SliderValue × List UInt8)
  | 0, bytes => some ([], bytes)
  | count + 1, bytes => do
    let slot ← takeWord? bytes
    let value ← takeWord? slot.2
    let others ← takeSliders? count value.2
    some (⟨slot.1, widen value.1⟩ :: others.1, others.2)

/-- Read a state.  It is refused where the bytes end before the last slider does. -/
def ofBytes? (bytes : ByteArray) : Option EffectState := do
  let count ← takeWord? bytes.data.toList
  if bytes.size < 4 + 8 * count.1.toNat then none
  else
    let sliders ← takeSliders? count.1.toNat count.2
    some { sliders := sliders.1, data := pack sliders.2 }

end EffectState
end EffectHost

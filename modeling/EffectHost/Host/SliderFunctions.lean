import EffectHost.Code.Run
import EffectHost.Host.Surroundings

/-!
# Functions on sliders

A script announces changes of its sliders, or shows and hides them.  It names a slider by
its variable, or several by the value of their mask.
-/

namespace EffectHost

open Number

namespace SliderFunctions

/-- The sliders that an argument names. -/
def maskOf (arg? : Option Arg) : Mask :=
  match arg? with
  | none => Mask.empty
  | some arg =>
    match arg.cell?.bind HostVariable.sliderOf? with
    | some slot => Mask.single slot
    | none => if 1.0 ≤ arg.value then ⟨UInt64.ofNat (toNatural arg.value)⟩ else Mask.empty

/-- Announce changes. -/
def change (masks : SliderMasks) (args : List Arg) : SliderMasks :=
  { masks with changed := masks.changed.union (maskOf args.head?) }

/-- Announce automation, which is also a change. -/
def automate (masks : SliderMasks) (args : List Arg) : SliderMasks :=
  { change masks args with automated := masks.automated.union (maskOf args.head?) }

/-- Show sliders, hide them at zero, or turn them over below zero.  The result holds those
that are visible afterwards. -/
def reveal (masks : SliderMasks) (args : List Arg) : Float × SliderMasks :=
  let mask := maskOf args.head?
  let mode := argValue args 1
  let visible :=
    if mode < 0.0 then masks.visible.flip mask
    else if mode == 0.0 then masks.visible.diff mask
    else masks.visible.union mask
  ((visible.inter mask).toFloat, { masks with visible := visible })

end SliderFunctions
end EffectHost

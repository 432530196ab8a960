import EffectHost.Effect.Process

/-!
# Samples of output channels

What a cycle leaves in its output channels, sample by sample: the frames of the block hold
the samples of the script or of the input, or silence, and the samples behind the block
stay as they were.
-/

namespace EffectHost
namespace Channel

@[simp] theorem getElem?_copied (frames : Nat) (source target : Channel) (frame : Nat) :
    (copied frames source target)[frame]? =
      target[frame]?.map fun old => if frame < frames then source.getD frame old else old := by
  simp [copied]

@[simp] theorem getElem?_silenced (frames : Nat) (target : Channel) (frame : Nat) :
    (silenced frames target)[frame]? =
      target[frame]?.map fun old => if frame < frames then 0.0 else old := by
  simp [silenced]

@[simp] theorem size_copied (frames : Nat) (source target : Channel) :
    (copied frames source target).size = target.size := by
  simp [copied]

@[simp] theorem size_silenced (frames : Nat) (target : Channel) :
    (silenced frames target).size = target.size := by
  simp [silenced]

theorem getElem?_passed (count frames : Nat) (inputs outputs : List Channel) (channel : Nat) :
    (passed count frames inputs outputs)[channel]? = outputs[channel]?.map fun output =>
      if channel < count then copied frames (inputs.getD channel #[]) output
      else silenced frames output := by
  rw [passed, List.getElem?_mapIdx]

/-- Channels that pass carry the samples of the input in the frames of the block, and the
others are silent there. -/
theorem sample_passed {count frames : Nat} {inputs outputs : List Channel} {channel : Nat}
    {output : Channel} (known : outputs[channel]? = some output)
    (full : ∀ input ∈ inputs, frames ≤ input.size) (within : count ≤ inputs.length) :
    ∃ carried, (passed count frames inputs outputs)[channel]? = some carried ∧
      carried.size = output.size ∧
      ∀ frame, frame < frames → frame < output.size → carried[frame]? =
        if channel < count then (inputs.getD channel #[])[frame]? else some 0.0 := by
  rw [getElem?_passed, known]
  by_cases passes : channel < count
  · refine ⟨copied frames (inputs.getD channel #[]) output, by simp [passes], by simp, ?_⟩
    intro frame early inside
    have listed : channel < inputs.length := Nat.lt_of_lt_of_le passes within
    have long : frame < (inputs.getD channel #[]).size := by
      have enough := full inputs[channel] (List.getElem_mem listed)
      simp only [List.getD_eq_getElem?_getD, List.getElem?_eq_getElem listed,
        Option.getD_some]
      omega
    have found : ∀ old, (inputs.getD channel #[]).getD frame old =
        (inputs.getD channel #[])[frame] := by
      intro old
      exact dif_pos long
    rw [getElem?_copied, if_pos passes, Array.getElem?_eq_getElem inside,
      Array.getElem?_eq_getElem long, Option.map_some, if_pos early, found]
  · refine ⟨silenced frames output, by simp [passes], by simp, ?_⟩
    intro frame early inside
    rw [getElem?_silenced, if_neg passes, Array.getElem?_eq_getElem inside]
    simp [early]

end Channel
end EffectHost

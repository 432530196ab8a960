import EffectHost.Effect.Process
import Mathlib

/-!
# What is put into output channels

A cycle gets its output channels with whatever they held before, puts new samples into some
places of them and leaves the others.  Each of its ways to do so is told by what it puts at each
place, which does not depend on what was there.
-/

namespace EffectHost

/-- What is put at each channel and frame: a new sample, or none where the old one stays. -/
abbrev Fill := Nat → Nat → Option Float

/-- The sample at a frame of a channel. -/
def Channel.sampleOf (channels : List Channel) (channel frame : Nat) : Option Float :=
  (channels.getD channel #[])[frame]?

namespace Fill

/-- Put new samples into channels. -/
def applyTo (fill : Fill) (outputs : List Channel) : List Channel :=
  outputs.mapIdx fun channel output => output.mapIdx fun frame old => (fill channel frame).getD old

/-- Silence in the frames of the block. -/
def silence (frames : Nat) : Fill := fun _ frame => if frame < frames then some 0.0 else none

/-- The first inputs as far as they go, and silence in the other channels. -/
def pass (count frames : Nat) (inputs : List Channel) : Fill := fun channel frame =>
  if channel < count then if frame < frames then Channel.sampleOf inputs channel frame else none
  else silence frames channel frame

/-- The samples that the script has left for each frame, and silence in the other channels. -/
def deliver (plan : ChannelPlan) (rows : Array (Array Float)) : Fill := fun channel frame =>
  if channel < plan.outputs then rows[frame]?.bind fun row => row[channel]?
  else silence rows.size channel frame

theorem sampleOf_applyTo (fill : Fill) (outputs : List Channel) (channel frame : Nat) :
    Channel.sampleOf (fill.applyTo outputs) channel frame =
      (Channel.sampleOf outputs channel frame).map fun old => (fill channel frame).getD old := by
  rw [Channel.sampleOf, Channel.sampleOf, applyTo, List.getD_eq_getElem?_getD,
    List.getD_eq_getElem?_getD, List.getElem?_mapIdx]
  cases outputs[channel]? with
  | none => rfl
  | some output => exact Array.getElem?_mapIdx

theorem sizes_applyTo (fill : Fill) (outputs : List Channel) :
    (fill.applyTo outputs).map Array.size = outputs.map Array.size := by
  apply List.ext_getElem?
  intro channel
  rw [applyTo, List.getElem?_map, List.getElem?_mapIdx, List.getElem?_map, Option.map_map]
  exact congrArg (Option.map · _) (funext fun _ => Array.size_mapIdx)

/-- Samples stay where nothing is put. -/
theorem sampleOf_applyTo_of_none {fill : Fill} {channel frame : Nat}
    (stays : fill channel frame = none) (outputs : List Channel) :
    Channel.sampleOf (fill.applyTo outputs) channel frame =
      Channel.sampleOf outputs channel frame := by
  rw [sampleOf_applyTo, stays]
  cases Channel.sampleOf outputs channel frame <;> rfl

/-- What is put becomes the sample. -/
theorem getElem?_applyTo_of_some {fill : Fill} {channel frame : Nat} {sample : Float}
    (put : fill channel frame = some sample) {outputs : List Channel} {result : Channel}
    (known : (fill.applyTo outputs)[channel]? = some result) (inside : frame < result.size) :
    result[frame]? = some sample := by
  rw [applyTo, List.getElem?_mapIdx] at known
  rcases Option.map_eq_some_iff.mp known with ⟨output, _, rfl⟩
  rw [Array.size_mapIdx] at inside
  rw [Array.getElem?_mapIdx, Array.getElem?_eq_getElem inside, Option.map_some, put,
    Option.getD_some]

end Fill

theorem Channel.isSome_sampleOf {outputs others : List Channel}
    (alike : outputs.map Array.size = others.map Array.size) (channel frame : Nat) :
    (sampleOf outputs channel frame).isSome = (sampleOf others channel frame).isSome := by
  have size (channels : List Channel) :
      (channels.getD channel #[]).size = (channels.map Array.size).getD channel 0 := by
    rw [List.getD_eq_getElem?_getD, List.getD_eq_getElem?_getD, List.getElem?_map]
    cases channels[channel]? <;> rfl
  rw [Bool.eq_iff_iff, sampleOf, sampleOf, isSome_getElem?, isSome_getElem?,
    size, size, alike]

namespace Fill

/-- Where something is put, channels of the same sizes become the same. -/
theorem sampleOf_applyTo_congr {fill : Fill} {channel frame : Nat}
    (put : fill channel frame ≠ none) {outputs others : List Channel}
    (alike : outputs.map Array.size = others.map Array.size) :
    Channel.sampleOf (fill.applyTo outputs) channel frame =
      Channel.sampleOf (fill.applyTo others) channel frame := by
  rcases Option.ne_none_iff_exists'.mp put with ⟨sample, known⟩
  have both := Channel.isSome_sampleOf alike channel frame
  rw [sampleOf_applyTo, sampleOf_applyTo, known]
  cases first : Channel.sampleOf outputs channel frame <;>
    cases second : Channel.sampleOf others channel frame <;> simp_all

/-! ## The three ways to fill -/

theorem silenced_eq (fill : Fill) {channel frames : Nat}
    (silent : ∀ frame, fill channel frame = silence frames channel frame) (output : Channel) :
    Channel.silenced frames output =
      output.mapIdx fun frame old => (fill channel frame).getD old := by
  rw [Channel.silenced]
  congr 1
  funext frame old
  rw [silent, silence]
  split <;> rfl

theorem map_silenced (frames : Nat) (outputs : List Channel) :
    outputs.map (Channel.silenced frames) = (silence frames).applyTo outputs := by
  apply List.ext_getElem?
  intro channel
  rw [applyTo, List.getElem?_map, List.getElem?_mapIdx]
  exact congrArg (Option.map · _) (funext (silenced_eq (silence frames) fun _ => rfl))

theorem passed_eq (count frames : Nat) (inputs outputs : List Channel) :
    Channel.passed count frames inputs outputs = (pass count frames inputs).applyTo outputs := by
  rw [Channel.passed, applyTo]
  congr 1
  funext channel output
  split
  · next passes =>
      rw [Channel.copied]
      congr 1
      funext frame old
      rw [pass, if_pos passes]
      split
      · exact Array.getD_eq_getD_getElem? ..
      · rfl
  · next silent => exact silenced_eq _ (fun frame => if_neg silent) output

theorem collect_eq (plan : ChannelPlan) (rows : Array (Array Float)) (outputs : List Channel) :
    Effect.collect plan rows outputs = (deliver plan rows).applyTo outputs := by
  rw [Effect.collect, applyTo]
  congr 1
  funext channel output
  split
  · next told =>
      congr 1
      funext frame old
      rw [deliver, if_pos told]
      cases rows[frame]? with
      | none => rfl
      | some row => exact Array.getD_eq_getD_getElem? ..
  · next untold => exact silenced_eq _ (fun frame => if_neg untold) output

/-! ## Where something is put, and where nothing -/

/-- Channels that are told have the samples of the rows. -/
theorem deliver_of_lt {plan : ChannelPlan} {rows : Array (Array Float)} {channel frame : Nat}
    (told : channel < plan.outputs) {row : Array Float} (there : rows[frame]? = some row) :
    deliver plan rows channel frame = row[channel]? := by
  rw [deliver, if_pos told, there, Option.bind_some]

/-- Other channels are silent as far as there are rows. -/
theorem deliver_of_le {plan : ChannelPlan} {rows : Array (Array Float)} {channel frame : Nat}
    (untold : plan.outputs ≤ channel) (early : frame < rows.size) :
    deliver plan rows channel frame = some 0.0 := by
  rw [deliver, if_neg (Nat.not_lt.mpr untold), silence, if_pos early]

theorem silence_eq_none_iff {frames channel frame : Nat} :
    silence frames channel frame = none ↔ frames ≤ frame := by
  rw [silence]
  split <;> simp <;> omega

theorem pass_eq_none_iff {count frames channel frame : Nat} {inputs : List Channel} :
    pass count frames inputs channel frame = none ↔
      frames ≤ frame ∨ channel < count ∧ (inputs.getD channel #[]).size ≤ frame := by
  rw [pass]
  split
  · next passes =>
      split
      · next early =>
          rw [Channel.sampleOf, Array.getElem?_eq_none_iff]
          exact ⟨fun short => .inr ⟨passes, short⟩,
            fun cut => cut.elim (fun late => absurd early (Nat.not_lt.mpr late)) And.right⟩
      · next late => exact ⟨fun _ => .inl (Nat.not_lt.mp late), fun _ => rfl⟩
  · next silent =>
      rw [silence_eq_none_iff]
      exact ⟨.inl, fun cut => cut.elim id fun passes => absurd passes.1 silent⟩

theorem deliver_eq_none_iff {plan : ChannelPlan} {rows : Array (Array Float)}
    {channel frame : Nat} (wide : ∀ row, rows[frame]? = some row → row.size = plan.outputs) :
    deliver plan rows channel frame = none ↔ rows.size ≤ frame := by
  rw [deliver]
  split
  · next told =>
      rw [← Array.getElem?_eq_none_iff]
      cases known : rows[frame]? with
      | none => simp
      | some row =>
          have own : row[channel]? ≠ none := by
            rw [ne_eq, Array.getElem?_eq_none_iff, wide row known]
            exact Nat.not_le.mpr told
          simpa using own
  · exact silence_eq_none_iff

end Fill

end EffectHost

import EffectHost.Effect.Process

/-!
# Blocks in slices

A block can be cut into slices that follow one another.  The script finds the same samples
in a slice as in the block from which it was cut, so that its sample section computes the
frames of the block whether it runs over the block or over one slice after the other, and
the output slices joined are the output of the block.
-/

namespace EffectHost
namespace Channel

/-- The frames of a channel from one on. -/
def slice (start frames : Nat) (channel : Channel) : Channel :=
  channel.extract start (start + frames)

/-- The frames of several channels from one on. -/
def slices (start frames : Nat) (channels : List Channel) : List Channel :=
  channels.map (slice start frames)

/-- Join channels of a slice with those of the next one. -/
def joined (first second : List Channel) : List Channel :=
  List.zipWith (· ++ ·) first second

theorem getElem?_slice (start frames : Nat) (channel : Channel) (frame : Nat) :
    (slice start frames channel)[frame]? =
      if frame < frames then channel[start + frame]? else none := by
  rw [slice, Array.getElem?_extract]
  by_cases inside : frame < min (start + frames) channel.size - start
  · have early : frame < frames := by omega
    rw [if_pos inside, if_pos early]
  · rw [if_neg inside]
    split
    · rw [Array.getElem?_eq_none (by omega)]
    · rfl

theorem getD_slice {start frames frame : Nat} (inside : frame < frames) (channel : Channel)
    (other : Float) :
    (slice start frames channel).getD frame other = channel.getD (start + frame) other := by
  rw [Array.getD_eq_getD_getElem?, Array.getD_eq_getD_getElem?, getElem?_slice, if_pos inside]

@[simp] theorem slice_zero (start : Nat) (channel : Channel) : slice start 0 channel = #[] := by
  apply Array.ext_getElem?
  intro frame
  simp [getElem?_slice]

@[simp] theorem length_slices (start frames : Nat) (channels : List Channel) :
    (slices start frames channels).length = channels.length := by
  simp [slices]

theorem getElem?_slices (start frames : Nat) (channels : List Channel) (channel : Nat) :
    (slices start frames channels)[channel]? = channels[channel]?.map (slice start frames) := by
  rw [slices, List.getElem?_map]

theorem getD_slices (start frames : Nat) (channels : List Channel) (channel : Nat) :
    (slices start frames channels).getD channel #[] =
      slice start frames (channels.getD channel #[]) := by
  rw [List.getD_eq_getElem?_getD, List.getD_eq_getElem?_getD, getElem?_slices]
  cases channels[channel]? with
  | none => simp [slice]
  | some found => rfl

/-- What is computed sample by sample can be computed in slices. -/
theorem mapIdx_slice_append {start first second : Nat} (channel : Channel)
    {early late whole : Nat → Float → Float}
    (before : ∀ frame, frame < first → whole frame = early frame)
    (behind : ∀ frame, frame < second → whole (first + frame) = late frame) :
    (slice start first channel).mapIdx early ++
        (slice (start + first) second channel).mapIdx late =
      (slice start (first + second) channel).mapIdx whole := by
  apply Array.ext_getElem?
  intro frame
  have size : (slice start first channel).size = min (start + first) channel.size - start :=
    Array.size_extract
  rw [Array.getElem?_append, Array.size_mapIdx, size, Array.getElem?_mapIdx,
    Array.getElem?_mapIdx, Array.getElem?_mapIdx, getElem?_slice, getElem?_slice,
    getElem?_slice]
  by_cases left : frame < min (start + first) channel.size - start
  · have inFirst : frame < first := by omega
    have inBoth : frame < first + second := by omega
    rw [if_pos left, if_pos inFirst, if_pos inBoth, before frame inFirst]
  · rw [if_neg left]
    by_cases short : channel.size ≤ start + frame
    · rw [Array.getElem?_eq_none (by omega : channel.size ≤ start + first +
        (frame - (min (start + first) channel.size - start))),
        Array.getElem?_eq_none short]
      simp
    · have cut : min (start + first) channel.size - start = first := by omega
      have place : start + first + (frame - first) = start + frame := by omega
      have number : first + (frame - first) = frame := by omega
      rw [cut, place]
      by_cases inSecond : frame - first < second
      · have inBoth : frame < first + second := by omega
        have same : whole frame = late (frame - first) := by
          rw [← behind (frame - first) inSecond, number]
        rw [if_pos inSecond, if_pos inBoth, same]
      · have past : ¬ frame < first + second := by omega
        rw [if_neg inSecond, if_neg past]
        rfl

/-- Channels that are computed one by one can be computed in slices. -/
theorem mapIdx_slices_joined {start first second : Nat} (channels : List Channel)
    {early late whole : Nat → Channel → Channel}
    (each : ∀ number channel, early number (slice start first channel) ++
      late number (slice (start + first) second channel) =
        whole number (slice start (first + second) channel)) :
    joined ((slices start first channels).mapIdx early)
        ((slices (start + first) second channels).mapIdx late) =
      (slices start (first + second) channels).mapIdx whole := by
  apply List.ext_getElem?
  intro number
  rw [joined, List.getElem?_zipWith, List.getElem?_mapIdx, List.getElem?_mapIdx,
    List.getElem?_mapIdx, getElem?_slices, getElem?_slices, getElem?_slices]
  cases channels[number]? with
  | none => rfl
  | some channel => exact congrArg some (each number channel)

theorem copied_slice_append (start first second : Nat) (source target : Channel) :
    copied first (slice start first source) (slice start first target) ++
        copied second (slice (start + first) second source)
          (slice (start + first) second target) =
      copied (first + second) (slice start (first + second) source)
        (slice start (first + second) target) := by
  apply mapIdx_slice_append
  · intro frame inside
    have inBoth : frame < first + second := by omega
    funext old
    rw [if_pos inside, if_pos inBoth, getD_slice inside, getD_slice inBoth]
  · intro frame inside
    have inBoth : first + frame < first + second := by omega
    funext old
    rw [if_pos inside, if_pos inBoth, getD_slice inside, getD_slice inBoth, Nat.add_assoc]

theorem silenced_slice_append (start first second : Nat) (target : Channel) :
    silenced first (slice start first target) ++
        silenced second (slice (start + first) second target) =
      silenced (first + second) (slice start (first + second) target) := by
  apply mapIdx_slice_append
  · intro frame inside
    funext old
    rw [if_pos inside, if_pos (by omega)]
  · intro frame inside
    funext old
    rw [if_pos inside, if_pos (by omega)]

/-- Channels pass in slices. -/
theorem passed_slices_joined (count start first second : Nat) (inputs outputs : List Channel) :
    joined (passed count first (slices start first inputs) (slices start first outputs))
        (passed count second (slices (start + first) second inputs)
          (slices (start + first) second outputs)) =
      passed count (first + second) (slices start (first + second) inputs)
        (slices start (first + second) outputs) := by
  apply mapIdx_slices_joined
  intro number channel
  by_cases passes : number < count
  · rw [if_pos passes, if_pos passes, if_pos passes, getD_slices, getD_slices, getD_slices]
    exact copied_slice_append start first second _ channel
  · rw [if_neg passes, if_neg passes, if_neg passes]
    exact silenced_slice_append start first second channel

theorem passed_slices_zero (count start : Nat) (inputs outputs : List Channel) :
    passed count 0 (slices start 0 inputs) (slices start 0 outputs) =
      outputs.map fun _ => #[] := by
  apply List.ext_getElem?
  intro number
  rw [passed, List.getElem?_mapIdx, getElem?_slices, List.getElem?_map]
  cases outputs[number]? with
  | none => rfl
  | some output => simp [copied, silenced]

end Channel

open Channel

/-! ## Frames -/

@[simp] theorem ChannelPlan.of_slices (header : Header) (inputs outputs : List Channel)
    (start frames : Nat) :
    ChannelPlan.of header (slices start frames inputs) (slices start frames outputs) =
      ChannelPlan.of header inputs outputs := by
  simp [ChannelPlan.of]

theorem ChannelPlan.sampleAt_slices (plan : ChannelPlan) (inputs : List Channel)
    (channel start : Nat) {frame frames : Nat} (inside : frame < frames) :
    plan.sampleAt (slices start frames inputs) channel frame =
      plan.sampleAt inputs channel (start + frame) := by
  rw [sampleAt, sampleAt, getD_slices, getD_slice inside]

namespace Effect

theorem feedFrame_slices (plan : ChannelPlan) (inputs : List Channel) (start : Nat)
    {frame frames : Nat} (inside : frame < frames) :
    feedFrame plan (slices start frames inputs) frame =
      feedFrame plan inputs (start + frame) := by
  funext store
  simp only [feedFrame, plan.sampleAt_slices inputs _ start inside]

section Frames

variable (host : CodeHost Surroundings) (program : Program) (plan : ChannelPlan)
  (precision : Precision) (inputs : List Channel)

/-- Run the sample section for a frame and keep the output samples. -/
def runFrame (progress : Array (Array Float) × Store × Surroundings) (frame : Nat) :
    Array (Array Float) × Store × Surroundings :=
  let done := Code.run host program
    (feedFrame plan inputs frame progress.2.1, progress.2.2)
  (progress.1.push (outputFrame plan precision done.1), done)

/-- Run the sample section for some frames. -/
def runSomeFrames (frames : List Nat) (state : Store × Surroundings) :
    Array (Array Float) × Store × Surroundings :=
  frames.foldl (runFrame host program plan precision inputs) (#[], state)

variable {host program plan precision inputs}

theorem runFrames_eq_runSomeFrames (frames : Nat) (state : Store × Surroundings) :
    runFrames host program plan precision inputs frames state =
      runSomeFrames host program plan precision inputs (List.range frames) state := by
  rw [runFrames, runSomeFrames]
  congr 1

/-- The rows that are there already do not matter to the frames that follow. -/
theorem foldl_runFrame (rows : Array (Array Float)) (frames : List Nat)
    (state : Store × Surroundings) :
    frames.foldl (runFrame host program plan precision inputs) (rows, state) =
      let ran := runSomeFrames host program plan precision inputs frames state
      (rows ++ ran.1, ran.2) := by
  induction frames generalizing rows state with
  | nil => simp [runSomeFrames]
  | cons frame others ih =>
      rw [List.foldl_cons, runSomeFrames, List.foldl_cons]
      simp only [runFrame, ih]
      simp

theorem runSomeFrames_append (first second : List Nat) (state : Store × Surroundings) :
    runSomeFrames host program plan precision inputs (first ++ second) state =
      let early := runSomeFrames host program plan precision inputs first state
      let late := runSomeFrames host program plan precision inputs second early.2
      (early.1 ++ late.1, late.2) := by
  rw [runSomeFrames, List.foldl_append]
  exact foldl_runFrame _ second _

theorem size_runSomeFrames (frames : List Nat) (state : Store × Surroundings) :
    (runSomeFrames host program plan precision inputs frames state).1.size = frames.length := by
  have grows : ∀ (others : List Nat) (progress : Array (Array Float) × Store × Surroundings),
      (others.foldl (runFrame host program plan precision inputs) progress).1.size =
        progress.1.size + others.length := by
    intro others
    induction others with
    | nil => exact fun _ => rfl
    | cons frame others ih =>
        intro progress
        rw [List.foldl_cons, ih, runFrame, Array.size_push, List.length_cons]
        omega
  exact (grows frames (#[], state)).trans (Nat.zero_add _)

theorem runFrame_slices (start : Nat) {frame frames : Nat} (inside : frame < frames)
    (progress : Array (Array Float) × Store × Surroundings) :
    runFrame host program plan precision (slices start frames inputs) progress frame =
      runFrame host program plan precision inputs progress (start + frame) := by
  simp only [runFrame, feedFrame_slices plan inputs start inside]

theorem foldl_runFrame_slices (start : Nat) {frames : Nat} (numbers : List Nat)
    (inside : ∀ frame ∈ numbers, frame < frames)
    (progress : Array (Array Float) × Store × Surroundings) :
    numbers.foldl (runFrame host program plan precision (slices start frames inputs))
        progress =
      (numbers.map (start + ·)).foldl (runFrame host program plan precision inputs)
        progress := by
  induction numbers generalizing progress with
  | nil => rw [List.map_nil, List.foldl_nil, List.foldl_nil]
  | cons frame others ih =>
      rw [List.forall_mem_cons] at inside
      rw [List.map_cons, List.foldl_cons, List.foldl_cons, runFrame_slices start inside.1,
        ih inside.2]

/-- The frames of a slice are frames of the block. -/
theorem runFrames_slices (start frames : Nat) (state : Store × Surroundings) :
    runFrames host program plan precision (slices start frames inputs) frames state =
      runSomeFrames host program plan precision inputs (List.range' start frames) state := by
  rw [runFrames_eq_runSomeFrames, List.range'_eq_map_range]
  exact foldl_runFrame_slices start (List.range frames) (fun _ => List.mem_range.mp) _

/-- The output of a block is put together from the rows of its slices. -/
theorem collect_slices_joined {start first second : Nat} {early late : Array (Array Float)}
    (before : early.size = first) (behind : late.size = second) (outputs : List Channel) :
    joined (collect plan early (slices start first outputs))
        (collect plan late (slices (start + first) second outputs)) =
      collect plan (early ++ late) (slices start (first + second) outputs) := by
  apply mapIdx_slices_joined
  intro number channel
  by_cases told : number < plan.outputs
  · rw [if_pos told, if_pos told, if_pos told]
    apply mapIdx_slice_append
    · intro frame inside
      funext old
      rw [Array.getElem?_append_left (by omega)]
    · intro frame inside
      funext old
      rw [Array.getElem?_append_right (by omega), before, Nat.add_sub_cancel_left]
  · rw [if_neg told, if_neg told, if_neg told, Array.size_append, before, behind]
    exact silenced_slice_append start first second channel

theorem collect_slices_zero (start : Nat) (outputs : List Channel) :
    collect plan #[] (slices start 0 outputs) = outputs.map fun _ => #[] := by
  apply List.ext_getElem?
  intro number
  rw [collect, List.getElem?_mapIdx, getElem?_slices, List.getElem?_map]
  cases outputs[number]? with
  | none => rfl
  | some output => simp [silenced]

end Frames

variable {σ : Type}

/-! ## Blocks -/

/-- Nothing happens in a block without frames. -/
theorem runBlock_slices_zero (effect : Effect σ) (plan : ChannelPlan) (precision : Precision)
    (inputs outputs : List Channel) (start : Nat) :
    effect.runBlock plan precision (slices start 0 inputs) (slices start 0 outputs) 0 =
      (outputs.map fun _ => #[], effect) := by
  rw [runBlock]
  split
  · exact congrArg (·, effect) (collect_slices_zero start outputs)
  · exact congrArg (·, effect) (passed_slices_zero _ start inputs outputs)

/-- A block can be run slice by slice. -/
theorem runBlock_slices_add (effect : Effect σ) (plan : ChannelPlan) (precision : Precision)
    (inputs outputs : List Channel) (start first second : Nat) :
    effect.runBlock plan precision (slices start (first + second) inputs)
        (slices start (first + second) outputs) (first + second) =
      let early := effect.runBlock plan precision (slices start first inputs)
        (slices start first outputs) first
      let late := early.2.runBlock plan precision (slices (start + first) second inputs)
        (slices (start + first) second outputs) second
      (joined early.1 late.1, late.2) := by
  cases found : effect.program? .sample with
  | none =>
      simp only [runBlock, found, passed_slices_joined]
  | some program =>
      have numbers : List.range' start (first + second) =
          List.range' start first ++ List.range' (start + first) second := by
        rw [List.range'_append_1]
      have still : ∀ state : Store × Surroundings,
          { effect with store := state.1, around := state.2 }.program? .sample =
            some program := fun _ => found
      have host : ∀ state : Store × Surroundings,
          { effect with store := state.1, around := state.2 }.codeHost cycleCaller =
            effect.codeHost cycleCaller := fun _ => rfl
      simp only [runBlock, found, still, host, runFrames_slices, numbers, runSomeFrames_append]
      congr 1
      rw [collect_slices_joined]
      · rw [size_runSomeFrames, List.length_range']
      · rw [size_runSomeFrames, List.length_range']

theorem length_runBlock (effect : Effect σ) (plan : ChannelPlan) (precision : Precision)
    (inputs outputs : List Channel) (frames : Nat) :
    (effect.runBlock plan precision inputs outputs frames).1.length = outputs.length := by
  rw [runBlock]
  split
  · exact List.length_mapIdx
  · exact List.length_mapIdx

end Effect
end EffectHost

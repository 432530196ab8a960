import EffectHost.Proofs.Effect.DueWork
import EffectHost.Proofs.Effect.SampleRuns

/-!
# What outputs held before

Which places of its outputs a cycle fills, and which samples it puts there, depends on how many
outputs there are, but not on what they held.

Samples stay behind the block.  Inside the block they stay where a channel passes and its input
has ended: a script without a sample section, and a cycle that passes by, copy an input as far
as it goes and leave the rest of its output as it was.
-/

namespace EffectHost
namespace Effect

open Rig

variable {σ : Type} {painter : Painter σ} {config : Config}

/-- What a cycle puts into its outputs. -/
def fill (effect : Effect σ) (precision : Precision) (inputs outputs : List Channel)
    (frames : Nat) : Fill :=
  let plan := ChannelPlan.of effect.header inputs outputs
  let passing := Fill.pass (min plan.inputs plan.outputs) frames inputs
  if !effect.isCompiled then Fill.silence frames
  else if effect.rig.drawing.isBusy then passing
  else
    match effect.programId? .sample with
    | some id => Fill.deliver plan (effect.sampleRows plan id precision inputs frames)
    | none => passing

/-- Whether a cycle has no sample for a channel that passes, because its input has ended. -/
def LacksSample (effect : Effect σ) (inputs outputs : List Channel) (channel frame : Nat) :
    Prop :=
  let plan := ChannelPlan.of effect.header inputs outputs
  effect.isCompiled = true ∧
    (effect.rig.drawing.isBusy = true ∨ effect.programId? .sample = none) ∧
      channel < min plan.inputs plan.outputs ∧ (inputs.getD channel #[]).size ≤ frame

section Cycle

variable {effect : Effect σ} (precision : Precision) (inputs : List Channel) (frames : Nat)

theorem process_fst_eq_fill (informed : effect.isCompiled = true → effect.hasInfo = true)
    (outputs : List Channel) :
    (effect.process precision inputs outputs frames).1 =
      (effect.fill precision inputs outputs frames).applyTo outputs := by
  cases compiled : effect.isCompiled with
  | false =>
      have begun : effect.beginCycle.isCompiled = false := compiled
      simp [process, fill, begun, compiled, Fill.map_silenced]
  | true =>
      cases busy : effect.rig.drawing.isBusy with
      | true =>
          rw [process_of_busy compiled busy]
          simp only [fill, compiled, busy, Bool.not_true, Bool.false_eq_true, if_false, if_true]
          exact Fill.passed_eq _ frames inputs outputs
      | false =>
          simp only [fill, compiled, busy, Bool.not_true, Bool.false_eq_true, if_false]
          cases found : effect.programId? .sample with
          | some id =>
              exact process_fst_of_sample (informed compiled) busy found precision inputs outputs
                frames
          | none =>
              have absent : (effect.performAll (effect.leadSteps
                  (ChannelPlan.of effect.header inputs outputs) frames)).program? .sample =
                    none := by
                rw [program?, programId?_of_keepsCode (keepsCode_performAll effect _), found]
                rfl
              rw [process_fst_of_idle compiled (informed compiled) busy, runBlock, absent,
                Nat.min_comm]
              exact Fill.passed_eq _ frames inputs outputs

theorem fill_congr {outputs others : List Channel} (many : outputs.length = others.length) :
    effect.fill precision inputs outputs frames = effect.fill precision inputs others frames := by
  have plan : ChannelPlan.of effect.header inputs outputs =
      ChannelPlan.of effect.header inputs others := by
    rw [ChannelPlan.of, ChannelPlan.of, many]
  rw [fill, fill, plan]

theorem cycleSteps_congr {outputs others : List Channel} (many : outputs.length = others.length) :
    effect.cycleSteps inputs outputs frames = effect.cycleSteps inputs others frames := by
  have plan : ChannelPlan.of effect.header inputs outputs =
      ChannelPlan.of effect.header inputs others := by
    rw [ChannelPlan.of, ChannelPlan.of, many]
  rw [cycleSteps, cycleSteps, blockSteps, blockSteps, plan]

theorem fill_eq_none_iff (pinned : effect.header.Pinned) {inputs outputs : List Channel}
    {channel frame : Nat} :
    effect.fill precision inputs outputs frames channel frame = none ↔
      frames ≤ frame ∨ effect.LacksSample inputs outputs channel frame := by
  let plan := ChannelPlan.of effect.header inputs outputs
  cases compiled : effect.isCompiled with
  | false => simp [fill, LacksSample, compiled, Fill.silence_eq_none_iff]
  | true =>
      cases busy : effect.rig.drawing.isBusy with
      | true => simp [fill, LacksSample, compiled, busy, Fill.pass_eq_none_iff]
      | false =>
          cases found : effect.programId? .sample with
          | none => simp [fill, LacksSample, compiled, busy, found, Fill.pass_eq_none_iff]
          | some id =>
              let rows := effect.sampleRows plan id precision inputs frames
              have told : plan.outputs ≤ channelVariables :=
                Nat.le_trans (Nat.min_le_right _ _) pinned.outputs
              have stays : Fill.deliver plan rows channel frame = none ↔ frames ≤ frame := by
                rw [Fill.deliver_eq_none_iff fun _ => size_row_sampleRows told, size_sampleRows]
              simpa [fill, LacksSample, compiled, busy, found] using stays

end Cycle

/-- Two cycles whose outputs held different samples before leave the same effect, and the same
samples in the frames of the block; but each keeps its own samples where a channel passes and
its input has ended.  Behind the block each keeps its own samples, too. -/
theorem samples_stay_where_input_ends {effect : Effect σ}
    (reached : Reached painter config effect) (precision : Precision)
    {inputs outputs others : List Channel}
    (alike : outputs.map Array.size = others.map Array.size) (frames : Nat) :
    let first := effect.process precision inputs outputs frames
    let second := effect.process precision inputs others frames
    first.2 = second.2 ∧
    first.1.map Array.size = outputs.map Array.size ∧
    second.1.map Array.size = others.map Array.size ∧
    ∀ channel frame,
      (frames ≤ frame ∨ effect.LacksSample inputs outputs channel frame →
        Channel.sampleOf first.1 channel frame = Channel.sampleOf outputs channel frame ∧
        Channel.sampleOf second.1 channel frame = Channel.sampleOf others channel frame) ∧
      (frame < frames → ¬ effect.LacksSample inputs outputs channel frame →
        Channel.sampleOf first.1 channel frame = Channel.sampleOf second.1 channel frame) := by
  intro first second
  have many : outputs.length = others.length := by
    rw [← List.length_map Array.size, alike, List.length_map]
  have informed := reached.grounded.hasInfo
  let fill := effect.fill precision inputs outputs frames
  have mine : first.1 = fill.applyTo outputs :=
    process_fst_eq_fill precision inputs frames informed outputs
  have theirs : second.1 = fill.applyTo others := by
    rw [process_fst_eq_fill precision inputs frames informed others,
      ← fill_congr precision inputs frames many]
  refine ⟨?_, by rw [mine, Fill.sizes_applyTo], by rw [theirs, Fill.sizes_applyTo], ?_⟩
  · rw [process_eq_performAll, process_eq_performAll, cycleSteps_congr inputs frames many]
  · intro channel frame
    rw [mine, theirs]
    have stays : fill channel frame = none ↔
        frames ≤ frame ∨ effect.LacksSample inputs outputs channel frame :=
      fill_eq_none_iff precision frames reached.pinned
    constructor
    · intro kept
      exact ⟨Fill.sampleOf_applyTo_of_none (stays.mpr kept) outputs,
        Fill.sampleOf_applyTo_of_none (stays.mpr kept) others⟩
    · intro early heard
      apply Fill.sampleOf_applyTo_congr ?_ alike
      intro none
      exact (stays.mp none).elim (Nat.not_le.mpr early) heard

/-- During a drawing pass the first frame of a block of two passes.  Behind the end of the input
two cycles keep what each of them found. -/
theorem samples_stay_where_input_ends_busy :
    let painter : Painter Unit :=
      { size := fun _ => (4, 3), scale := fun _ => 1.0, reset := fun surface => surface
        call := fun _ _ effect => (0.0, effect)
        takeDirty := fun surface => (true, surface) }
    let disk := Disk.empty.addFile ["script"] "@sample\n".toUTF8
    let start := (Effect.new disk {}).after painter [.load "/script" false, .compile {}]
    let effect := start.through painter [.beginPass ()]
    let inputs : List Channel := [#[0.5]]
    let outputs : List Channel := [#[1.0, 1.0]]
    let others : List Channel := [#[2.0, 2.0]]
    let first := effect.process .single inputs outputs 2
    let second := effect.process .single inputs others 2
    Reached painter {} effect ∧ outputs.map Array.size = others.map Array.size ∧
      effect.LacksSample inputs outputs 0 1 ∧
      Channel.sampleOf first.1 0 0 = Channel.sampleOf second.1 0 0 ∧
      Channel.sampleOf first.1 0 1 = some 1.0 ∧ Channel.sampleOf second.1 0 1 = some 2.0 := by
  intro painter disk start effect inputs outputs others first second
  have confined : painter.Confined := fun _ _ _ => ⟨[], rfl⟩
  have begun : Reached painter {} start := reached_after confined disk {} _
  have reached : Reached painter {} effect := begun.through _
  have alike : outputs.map Array.size = others.map Array.size := by decide +kernel
  have lacks : effect.LacksSample inputs outputs 0 1 :=
    ⟨by decide +kernel, .inl (by decide +kernel), by decide +kernel, by decide⟩
  have heard : ¬ effect.LacksSample inputs outputs 0 0 :=
    fun lacks => absurd lacks.2.2.2 (by decide)
  rcases samples_stay_where_input_ends reached .single alike 2 with ⟨_, _, _, samples⟩
  have kept := (samples 0 1).1 (.inr lacks)
  exact ⟨reached, alike, lacks, (samples 0 0).2 (by decide) heard, kept.1, kept.2⟩

/-- A script without a sample section does not cover what its output held before either. -/
theorem old_samples_heard_behind_input :
    let painter : Painter Unit :=
      { size := fun _ => (4, 3), scale := fun _ => 1.0, reset := fun surface => surface
        call := fun _ _ effect => (0.0, effect)
        takeDirty := fun surface => (true, surface) }
    let disk := Disk.empty.addFile ["script"] "desc:Pass\nin_pin:in\nout_pin:out\n".toUTF8
    let effect := (Effect.new disk {}).after painter [.load "/script" false, .compile {}]
    let outputs : List Channel := [#[1.0, 1.0]]
    let others : List Channel := [#[2.0, 2.0]]
    let first := effect.process .double [#[0.5]] outputs 2
    let second := effect.process .double [#[0.5]] others 2
    Reached painter {} effect ∧ outputs.map Array.size = others.map Array.size ∧
      ¬ ∀ channel frame, frame < 2 →
        Channel.sampleOf first.1 channel frame = Channel.sampleOf second.1 channel frame := by
  intro painter disk effect outputs others first second
  have confined : painter.Confined := fun _ _ _ => ⟨[], rfl⟩
  refine ⟨reached_after confined disk {} _, by decide +kernel, ?_⟩
  intro same
  have mine : Channel.sampleOf first.1 0 1 = some 1.0 := by decide +kernel
  have theirs : Channel.sampleOf second.1 0 1 = some 2.0 := by decide +kernel
  have equal := mine.symm.trans ((same 0 1 (by decide)).trans theirs)
  exact absurd equal (by decide +kernel)

end Effect
end EffectHost

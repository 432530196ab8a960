import EffectHost.Proofs.Effect.Channels
import EffectHost.Proofs.Effect.DueWork

/-!
# Cycles that pass by

A cycle that begins during a drawing pass finds the machine in use.  It lets the block and
the queued events through and leaves everything else as it was, but for the variable by
which it had told the script about the triggers.  The triggers themselves go back to those
that wait, so that each of them is told to the next cycle that runs, and to that one only.
-/

namespace EffectHost
namespace Effect

open Rig

variable {σ : Type} {painter : Painter σ} {config : Config}

/-- The events that a cycle passes on are those that were queued for it. -/
theorem events_bypass {effect : Effect σ} (grounded : effect.Grounded config)
    (extensible : config.midiOutputExtensible = true) (triggers : Mask)
    (inputs outputs : List Channel) (frames : Nat) :
    let passed := (effect.beginCycle.bypass triggers inputs outputs frames).2
    passed.around.output.events = effect.around.input.events ∧
      passed.around.input.events = [] := by
  rcases grounded.input with ⟨events, holds⟩
  have grows : effect.around.output.extensible = true := grounded.output.trans extensible
  have rewound : effect.around.input.rewind.Holds events := holds.of_bytes rfl
  constructor
  · have forwarded := MidiLog.events_pushAll_clear rewound effect.around.output grows
    rw [rewound.events_eq] at forwarded
    rw [holds.events_eq]
    refine Eq.trans ?_ forwarded
    rw [← rewound.events_eq]
    rfl
  · exact (MidiLog.holds_clear effect.around.input.rewind).events_eq

/-- A cycle that finds the machine free tells the script the triggers that were noted. -/
theorem read_trigger_beginCycle {effect : Effect σ} (hosted : effect.store.Hosted) :
    effect.beginCycle.store.read .trigger = effect.rig.pending.triggers.toFloat :=
  Store.read_write_self hosted .trigger _

/-- A cycle during a drawing pass changes only the trigger variable, the announced changes
and the MIDI logs. -/
structure PassedBy (before after : Effect σ) : Prop where
  rig : after.rig = before.rig
  cells : ∀ cell, cell ≠ HostVariable.trigger.cell →
    after.store.get cell = before.store.get cell
  memory : after.store.memory = before.store.memory
  strings : after.store.strings = before.store.strings
  files : after.around.files = before.around.files
  visible : after.around.masks.visible = before.around.masks.visible
  automated : after.around.masks.automated = before.around.masks.automated
  keyboard : after.around.keyboard = before.around.keyboard
  output : after.around.output.events = before.around.input.events
  input : after.around.input.events = []

theorem passedBy_bypass {effect : Effect σ} (grounded : effect.Grounded config)
    (extensible : config.midiOutputExtensible = true) (inputs outputs : List Channel)
    (frames : Nat) :
    effect.PassedBy
      (effect.beginCycle.bypass effect.rig.pending.triggers inputs outputs frames).2 := by
  rcases events_bypass grounded extensible effect.rig.pending.triggers inputs outputs frames
    with ⟨output, input⟩
  refine ⟨rig_bypass_beginCycle effect inputs outputs frames, ?_, rfl, rfl, rfl, rfl, rfl, rfl,
    output, input⟩
  intro cell other
  exact Store.get_set_of_ne effect.store other.symm _

/-- Bypass is transparent.  A cycle of compiled code during a drawing pass runs no program
and changes nothing but the trigger variable and what a cycle hands over; it passes the
queued events on in order, and the negotiated channels, and silences the others.  Whatever
happens before, a cycle that finds the machine free tells the script exactly the triggers
that were raised since the last one that did. -/
theorem bypass_is_transparent {effect : Effect σ} (reached : Reached painter config effect)
    (extensible : config.midiOutputExtensible = true) (compiled : effect.isCompiled = true) :
    (effect.rig.drawing.isBusy = true →
      ∀ (precision : Precision) (inputs outputs : List Channel) (frames : Nat),
        let passed := effect.process precision inputs outputs frames
        let plan := ChannelPlan.of effect.header inputs outputs
        Step.programs (effect.cycleSteps inputs outputs frames) = [] ∧
        passed.2 = effect.performAll (effect.cycleSteps inputs outputs frames) ∧
        effect.PassedBy passed.2 ∧
        ((∀ input ∈ inputs, frames ≤ input.size) →
          ∀ (channel : Nat) (output : Channel), outputs[channel]? = some output →
            ∃ carried, passed.1[channel]? = some carried ∧ carried.size = output.size ∧
              ∀ frame, frame < frames → frame < output.size → carried[frame]? =
                if channel < min plan.inputs plan.outputs then
                  (inputs.getD channel #[])[frame]?
                else some 0.0)) ∧
    ∀ moments : List (Moment σ),
      let now := effect.through painter moments
      now.rig.drawing.isBusy = false →
        (∀ (precision : Precision) (inputs outputs : List Channel) (frames : Nat),
          now.process precision inputs outputs frames =
            now.beginCycle.execute precision inputs outputs frames) ∧
        now.beginCycle.store.read .trigger =
          (effect.noted.through painter effect moments).triggers.toFloat := by
  have grounded : effect.Grounded config := reached.grounded
  constructor
  · intro busy precision inputs outputs frames passed plan
    have bypassed : passed = effect.beginCycle.bypass effect.rig.pending.triggers inputs
        outputs frames := process_of_busy compiled busy precision inputs outputs frames
    have steps : effect.cycleSteps inputs outputs frames =
        [.begin, .passOn effect.rig.pending.triggers] := by
      rw [cycleSteps, compiled, busy]
      rfl
    refine ⟨by rw [steps]; rfl, process_eq_performAll effect precision inputs outputs frames,
      ?_, ?_⟩
    · rw [bypassed]
      exact passedBy_bypass grounded extensible inputs outputs frames
    · intro full channel output known
      have within : min plan.inputs plan.outputs ≤ inputs.length :=
        Nat.le_trans (Nat.min_le_left _ _) (Nat.min_le_left _ _)
      rw [bypassed]
      exact Channel.sample_passed known full within
  · intro moments now idle
    have keeps : effect.rig.KeepsCode now.rig := keepsCode_through painter effect moments
    have still : now.beginCycle.isCompiled = true := by
      change now.isCompiled = true
      rw [isCompiled, keeps.sections]
      exact compiled
    have free : now.beginCycle.rig.drawing.isBusy = false := idle
    have noted : now.noted = effect.noted.through painter effect moments :=
      noted_through compiled (grounded.hasInfo compiled) moments
    constructor
    · intro precision inputs outputs frames
      simp only [process, still, free, Bool.not_true, Bool.false_eq_true, if_false]
    · rw [read_trigger_beginCycle (reached.through moments).grounded.hosted, ← noted]
      rfl

/-- Trigger three is raised during a drawing pass, and trigger zero behind a cycle that passes
by.  Two input frames pass that cycle, and the next one that runs tells both triggers. -/
theorem bypass_is_transparent_triggers :
    let painter : Painter Unit :=
      { size := fun _ => (4, 3), scale := fun _ => 1.0, reset := fun surface => surface
        call := fun _ _ effect => (0.0, effect)
        takeDirty := fun surface => (true, surface) }
    let disk := Disk.empty.addFile ["script"] "@sample\n".toUTF8
    let start := (Effect.new disk {}).after painter [.load "/script" false, .compile {}]
    let effect := start.through painter [.beginPass (), .cycle (.sendTrigger 3)]
    let now := effect.through painter
      [.cycle (.process .double [] [] 1), .cycle (.sendTrigger 0), .endPass]
    Reached painter {} effect ∧ effect.isCompiled = true ∧
      effect.rig.drawing.isBusy = true ∧
      (∃ carried, (effect.process .double [#[0.5, 0.25]] [#[0.0, 0.0]] 2).1[0]? = some carried ∧
        carried.size = 2 ∧ carried[1]? = some 0.25) ∧
      now.rig.drawing.isBusy = false ∧ now.beginCycle.store.read .trigger = 9.0 := by
  intro painter disk start effect now
  have confined : painter.Confined := fun _ _ _ => ⟨[], rfl⟩
  have begun : Reached painter {} start := reached_after confined disk {} _
  have reached : Reached painter {} effect := begun.through _
  have compiled : effect.isCompiled = true := by decide +kernel
  have busy : effect.rig.drawing.isBusy = true := by decide +kernel
  have idle : now.rig.drawing.isBusy = false := by decide +kernel
  rcases bypass_is_transparent reached rfl compiled with ⟨passes, told⟩
  rcases passes busy .double [#[0.5, 0.25]] [#[0.0, 0.0]] 2 with ⟨_, _, _, carries⟩
  rcases carries (by simp) 0 #[0.0, 0.0] rfl with ⟨carried, found, size, samples⟩
  refine ⟨reached, compiled, busy, ⟨carried, found, size, ?_⟩, idle, ?_⟩
  · have pins : 0 < min (ChannelPlan.of effect.header [#[0.5, 0.25]] [#[0.0, 0.0]]).inputs
        (ChannelPlan.of effect.header [#[0.5, 0.25]] [#[0.0, 0.0]]).outputs := by
      decide +kernel
    rw [samples 1 (by decide) (by decide), if_pos pins]
    rfl
  · rw [(told _ idle).2]
    decide +kernel

end Effect
end EffectHost

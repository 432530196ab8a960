import EffectHost.Proofs.Effect.ClosedCode
import EffectHost.Proofs.Host.IdleSerializer

/-!
# Who finds the serializer in use

The serializer is put to use when a state is saved or restored and is idle again afterwards.
So it is idle whenever a cycle or a drawing pass begins, and since no call puts it to use, it
is idle for all code that runs there.  Code that runs while a state is saved or restored finds
it in use.  This is the serialize section, but if init sections are due, it is those as well:
what they write comes in front of what the serialize section writes, and what they read is
missing when the serialize section reads.
-/

namespace EffectHost

open HostFunction

/-- The step puts the serializer to use. -/
def Step.usesSerializer : Step → Bool
  | .beginSerialize _ _ => true
  | _ => false

namespace Effect

variable {σ : Type} {painter : Painter σ} {config : Config}

/-- Nobody has put the serializer to use. -/
def Idle (effect : Effect σ) : Prop :=
  effect.around.files.Idle

theorem Idle.of_files {before after : Effect σ} (idle : before.Idle)
    (same : after.around.files = before.around.files) : after.Idle := by
  rw [Idle, same]
  exact idle

/-! ## Steps -/

/-- Code that finds an idle serializer leaves one, and so do its calls among each other. -/
theorem idle_run {effect : Effect σ} (idle : effect.Idle) (caller : Caller)
    (program : Program) :
    (effect.run caller program).Idle ∧
      ∀ call ∈ Code.calls (effect.codeHost caller) program (effect.store, effect.around),
        call.state.2.files.Idle := by
  refine Code.calls_preserves (effect.codeHost caller)
    (fun around past => around.files.Idle ∧ ∀ call ∈ past, call.state.2.files.Idle) ?_ program
    (effect.store, effect.around) ⟨idle, List.forall_mem_nil _⟩
  rintro name args state past ⟨still, all⟩
  exact ⟨idle_call name args still,
    List.forall_mem_append.mpr ⟨all, List.forall_mem_singleton.mpr still⟩⟩

theorem files_startInit (effect : Effect σ) :
    effect.startInit.around.files = effect.around.files.clear := by
  rw [startInit]
  dsimp only
  split
  · rw [prepareFresh]
  · rfl

/-- Only the beginning of saving or restoring puts the serializer to use. -/
theorem idle_perform {effect : Effect σ} (idle : effect.Idle) {step : Step}
    (plain : step.usesSerializer = false) : (effect.perform step).Idle := by
  cases step with
  | beginSerialize mode data => cases plain
  | startInit =>
      rw [perform, Idle, files_startInit]
      exact idle
  | run caller id => exact (idle_run idle caller _).1
  | endSerialize => exact rfl
  | _ => exact idle

theorem idle_callsOf {effect : Effect σ} (idle : effect.Idle) (step : Step) :
    ∀ made ∈ effect.callsOf step, made.call.state.2.files.Idle := by
  cases step with
  | run caller id =>
      intro made member
      rcases List.mem_map.mp member with ⟨call, called, rfl⟩
      exact (idle_run idle caller _).2 call called
  | _ => exact List.forall_mem_nil _

theorem idle_callsIn {effect : Effect σ} (idle : effect.Idle) {steps : List Step}
    (plain : ∀ step ∈ steps, step.usesSerializer = false) :
    (effect.performAll steps).Idle ∧
      ∀ made ∈ effect.callsIn steps, made.call.state.2.files.Idle := by
  induction steps generalizing effect with
  | nil => exact ⟨idle, List.forall_mem_nil _⟩
  | cons step others ih =>
      rcases List.forall_mem_cons.mp plain with ⟨first, rest⟩
      rcases ih (idle_perform idle first) rest with ⟨still, later⟩
      exact ⟨still, List.forall_mem_append.mpr ⟨idle_callsOf idle step, later⟩⟩

theorem plain_of_isInner {step : Step} (inner : step.isInner = true) :
    step.usesSerializer = false := by
  cases step with
  | beginSerialize mode data => cases inner
  | _ => rfl

/-- No step of a cycle puts the serializer to use. -/
theorem plain_cycleSteps (effect : Effect σ) (inputs outputs : List Channel) (frames : Nat) :
    ∀ step ∈ effect.cycleSteps inputs outputs frames, step.usesSerializer = false :=
  effect.forall_cycleSteps inputs outputs frames rfl (fun _ => rfl) rfl
    (fun _ inner _ => plain_of_isInner inner) fun _ => rfl

/-! ## Moments -/

theorem idle_serialize (effect : Effect σ) (mode : SerializeMode) (data : ByteArray) :
    (effect.serialize mode data).2.Idle :=
  rfl

theorem idle_actInCycle {effect : Effect σ} (idle : effect.Idle) (action : CycleAction) :
    (effect.actInCycle action).Idle := by
  cases action with
  | process precision inputs outputs frames =>
      rw [actInCycle, process_eq_performAll]
      exact (idle_callsIn idle (plain_cycleSteps effect inputs outputs frames)).1
  | sendMidi event => exact idle
  | _ => exact idle.of_files (onlyTells_actInCycle effect _ rfl).files

/-- Every moment leaves the serializer idle. -/
theorem idle_moment {effect : Effect σ} (idle : effect.Idle) (next : Moment σ) :
    (effect.moment painter next).Idle := by
  cases next with
  | cycle action => exact idle_actInCycle idle action
  | saveState =>
      simp only [moment, saveState]
      split
      · split <;> exact idle_serialize effect _ _
      · exact idle
  | loadState state =>
      simp only [moment, loadState]
      split
      · exact idle_serialize _ _ _
      · exact idle
  | setKey key pressed =>
      simp only [moment, setKey]
      split <;> exact idle
  | setMouse modifiers x y buttons wheel sideWheel =>
      simp only [moment, setMouse]
      split <;> exact idle.of_files rfl
  | beginPass surface =>
      simp only [moment, setBusy, updateDrawing, tellSize, setUpDueDrawing]
      split <;> exact idle.of_files rfl
  | endPass =>
      simp only [moment, takeDirty]
      split <;> exact idle
  | call facts function args => exact HostFunction.idle_run function args idle
  | attach surface | changeDisk disk | paint change | assign cell value
  | writeItem position value | writeRange address values | setString id text => exact idle

theorem idle_through {effect : Effect σ} (idle : effect.Idle) (moments : List (Moment σ)) :
    (effect.through painter moments).Idle := by
  induction moments generalizing effect with
  | nil => exact idle
  | cons next others ih => exact ih (idle_moment idle next)

theorem Reached.idle {effect : Effect σ} (reached : Reached painter config effect) :
    effect.Idle := by
  induction reached with
  | new disk => exact rfl
  | load before path ignoreImports ih =>
      rw [Effect.load]
      split <;> exact ih
  | compile before options ih =>
      rw [Effect.compile]
      split
      · split <;> exact ih
      · exact ih
  | unloadCode before ih | unload before ih => exact ih
  | moment before next ih => exact idle_moment ih next

/-! ## Drawing passes -/

/-- The calls that code makes in a drawing pass. -/
def drawingCalls (effect : Effect σ) (painter : Painter σ) :
    List (TracedCall (Surroundings × Rig σ)) :=
  match effect.rig.info?, effect.program? .gfx, effect.rig.drawing.surface? with
  | some _, some program, some surface =>
    let busy := effect.moment painter (.beginPass surface)
    Code.calls (drawingHost busy.facts painter) program (busy.store, busy.around, busy.rig)
  | _, _, _ => []

theorem idle_drawingCalls (confined : painter.Confined) {effect : Effect σ}
    (idle : effect.Idle) :
    ∀ call ∈ effect.drawingCalls painter, call.state.2.1.files.Idle := by
  rw [drawingCalls]
  split
  · next _ program surface _ _ _ =>
      let busy := effect.moment painter (.beginPass surface)
      have begun : busy.Idle := idle_moment idle (.beginPass surface)
      refine (Code.calls_preserves (drawingHost busy.facts painter)
        (fun outer past => outer.1.files.Idle ∧ ∀ call ∈ past, call.state.2.1.files.Idle) ?_
        program (busy.store, busy.around, busy.rig) ⟨begun, List.forall_mem_nil _⟩).2
      rintro name args ⟨store, around, rig⟩ past ⟨still, all⟩
      refine ⟨?_, List.forall_mem_append.mpr ⟨all, List.forall_mem_singleton.mpr still⟩⟩
      rw [drawingHost_call]
      split
      · exact HostFunction.idle_run _ args still
      · split
        · let current : Effect σ := ⟨store, around, rig⟩
          have found : current.Idle := still
          rcases leadsTo_call confined name args current with ⟨moments, led⟩
          have kept : (painter.call name args current).2.Idle := by
            rw [led]
            exact idle_through found moments
          exact kept
        · exact still
  · exact List.forall_mem_nil _

/-! ## States -/

/-- What the serialize section writes when a state is saved. -/
def written (effect : Effect σ) : ByteArray :=
  match effect.program? .serialize with
  | some program =>
    ((effect.beginSerialize .writing ByteArray.empty).run serializeCaller
      program).around.files.serializer.stream.bytes
  | none => ByteArray.empty

/-- Init sections are due in front of a serialize section. -/
def initPrecedesSerialize (effect : Effect σ) : Bool :=
  effect.rig.pending.init && (effect.programId? .serialize).isSome

theorem programs_serializeSteps_of_notDue {effect : Effect σ} (informed : effect.hasInfo = true)
    (notDue : effect.initPrecedesSerialize = false) (mode : SerializeMode) (data : ByteArray) :
    Step.programs (effect.serializeSteps mode data) = (effect.programId? .serialize).toList := by
  rw [initPrecedesSerialize, Bool.and_comm] at notDue
  rw [programs_serializeSteps informed, notDue]
  rfl

/-- Without init, a state holds what the serialize section writes. -/
theorem data_serialize_of_notDue {effect : Effect σ} (informed : effect.hasInfo = true)
    (notDue : effect.initPrecedesSerialize = false) :
    (effect.serialize .writing ByteArray.empty).1 = effect.written := by
  let begun := effect.beginSerialize .writing ByteArray.empty
  have same : begun.programId? .serialize = effect.programId? .serialize := rfl
  have named : begun.program? .serialize = effect.program? .serialize := rfl
  rw [initPrecedesSerialize] at notDue
  rw [serialize, runSerialize, written, same]
  cases found : effect.programId? .serialize with
  | none =>
      rw [program?, found]
      rfl
  | some id =>
      rw [found, Option.isSome_some, Bool.and_true] at notDue
      have still : begun.runDueInit = begun := by
        rw [runDueInit, if_neg]
        exact Bool.eq_false_iff.mp notDue
      have known : begun.hasInfo = true := informed
      rw [Option.isSome_some, if_pos rfl]
      dsimp only
      rw [still, if_pos known, runSection, named, program?, found]
      rfl

/-- Outside the saving and restoring of states the serializer is idle, for code in cycles and in
drawing passes alike, and what such code moves to or from it returns zero and changes nothing.
While a state is saved or restored without init sections that are due, the serialize section
is the only code that runs, and the state holds what it writes.

The actions come one after another.  While a state waits for a drawing pass to end, so that its
section can run, the pass would find the serializer in use; this is not among the actions of a
pass. -/
theorem serializer_is_idle_outside_states {effect : Effect σ}
    (reached : Reached painter config effect) :
    effect.Idle ∧
    (∀ (facts : Facts) (caller : Caller) (function : HostFunction) (args : List Arg)
      (state : State), function ∈ transfers → FileFunctions.handle args = 0 →
        state.2.files.Idle → function.run facts caller args state = (0.0, state)) ∧
    (∀ (inputs outputs : List Channel) (frames : Nat),
      ∀ made ∈ effect.callsIn (effect.cycleSteps inputs outputs frames),
        made.call.state.2.files.Idle) ∧
    (painter.Confined → ∀ call ∈ effect.drawingCalls painter, call.state.2.1.files.Idle) ∧
    (effect.isCompiled = true → effect.initPrecedesSerialize = false →
      (∃ state, effect.saveState.1 = some state ∧ state.data = effect.written) ∧
      Step.programs effect.saveSteps = (effect.programId? .serialize).toList ∧
      ∀ state, Step.programs (effect.loadSteps state) =
        (effect.programId? .serialize).toList) := by
  have idle : effect.Idle := reached.idle
  refine ⟨idle, ?_, ?_, fun confined => idle_drawingCalls confined idle, ?_⟩
  · intro facts caller function args state transfer zero unused
    exact run_of_idle transfer zero unused
  · intro inputs outputs frames
    exact (idle_callsIn idle (plain_cycleSteps effect inputs outputs frames)).2
  · intro compiled notDue
    have informed : effect.hasInfo = true := reached.grounded.hasInfo compiled
    have ran := programs_serializeSteps_of_notDue informed notDue
    have known : (effect.serialize .writing ByteArray.empty).2.hasInfo = true := by
      rw [hasInfo, (continues_serialize effect .writing ByteArray.empty).info]
      exact informed
    refine ⟨?_, ?_, ?_⟩
    · rw [saveState, if_pos compiled]
      dsimp only
      rw [if_pos known]
      exact ⟨_, rfl, data_serialize_of_notDue informed notDue⟩
    · rw [saveSteps, if_pos compiled]
      exact ran .writing ByteArray.empty
    · intro state
      rw [loadSteps, compiled, informed]
      exact ran .reading state.data

/-- A script whose sections all write to the serializer, after a cycle.  The next cycle gets
zero from it, and a state holds what the serialize section writes. -/
theorem serializer_is_idle_outside_states_cycle :
    let painter : Painter Unit :=
      { size := fun _ => (4, 3), scale := fun _ => 1.0, reset := fun surface => surface
        call := fun _ _ effect => (0.0, effect)
        takeDirty := fun surface => (true, surface) }
    let source := "@init\nfile_var(0, 1);\n@block\nfile_var(0, 3);\n" ++
      "@serialize\nfile_var(0, 2);\n"
    let disk := Disk.empty.addFile ["script"] source.toUTF8
    let loaded := (Effect.new disk {} : Effect Unit).load "/script" false
    let fresh := (loaded.effect.compile {}).effect
    let effect := (fresh.process .double [] [] 1).2
    Reached painter {} effect ∧ effect.isCompiled = true ∧
      (effect.callsIn (effect.cycleSteps [] [] 1)).length = 1 ∧
      (∀ made ∈ effect.callsIn (effect.cycleSteps [] [] 1),
        made.call.state.2.files.Idle) ∧
      ∃ state, effect.saveState.1 = some state ∧ state.data = effect.written ∧
        state.data.data.toList = [0, 0, 0, 64] := by
  intro painter source disk loaded fresh effect
  have reached : Reached painter {} effect :=
    (((Reached.new disk).load "/script" false).compile {}).moment
      (.cycle (.process .double [] [] 1))
  have grounded : loaded.effect.Grounded {} :=
    grounded_load (grounded_new disk {}) "/script" false
  let base := loaded.effect.rig.code.nextProgram
  let table := loaded.effect.programs {}
  have closed : loaded.effect.isClosed {} = true := by decide +kernel
  have succeeded : (loaded.effect.compile {}).result.isOk = true := by decide +kernel
  have tells : fresh.Tells base table := tells_compile grounded closed (result_of_isOk succeeded)
  have covers : Covers base table (fresh.cycleSteps [] [] 1) := by decide +kernel
  let play := fresh.evaluate base table (fresh.cycleSteps [] [] 1)
  have played : effect = play.2 := process_of_tells tells covers .double
  have still : play.2.Tells base table := tells.evaluate covers
  have compiled : play.2.isCompiled = true ∧ play.2.hasInfo = true ∧
      play.2.initPrecedesSerialize = false := by
    decide +kernel
  rcases compiled with ⟨compiled, informed, notDue⟩
  have cycle : Covers base table (play.2.cycleSteps [] [] 1) := by decide +kernel
  have one : (play.2.evaluate base table (play.2.cycleSteps [] [] 1)).1.length = 1 := by
    decide +kernel
  have save : Covers base table play.2.saveSteps.dropLast := by decide +kernel
  have bytes : (play.2.evaluate base table
      play.2.saveSteps.dropLast).2.around.files.serializer.stream.bytes.data.toList =
        [0, 0, 0, 64] := by
    decide +kernel
  rw [evaluate_eq still cycle] at one
  have told := data_saveState_of_tells compiled informed still save
  rw [← played] at compiled informed notDue one told
  rcases serializer_is_idle_outside_states reached with ⟨_, _, idle, _, states⟩
  rcases (states compiled notDue).1 with ⟨state, saved, data⟩
  rw [saved, Option.map_some, Option.some_inj] at told
  refine ⟨reached, compiled, one, idle [] [] 1, state, saved, data, ?_⟩
  rw [told, played]
  exact bytes

/-- Init code that is due when a state is saved finds the serializer in use and writes to it,
so that the state holds more than the serialize section writes. -/
theorem init_writes_to_saved_state :
    let source := "@init\nfile_var(0, 1);\n@serialize\nfile_var(0, 2);\n"
    let disk := Disk.empty.addFile ["script"] source.toUTF8
    let loaded := (Effect.new disk {} : Effect Unit).load "/script" false
    let effect := (loaded.effect.compile {}).effect
    effect.saveState.1.map (fun state => state.data.data.toList) =
        some [0, 0, 128, 63, 0, 0, 0, 64] ∧
      effect.written.data.toList = [0, 0, 0, 64] ∧
      (effect.callsIn effect.saveSteps).map
          (fun made => (made.caller.hasMidi, made.call.state.2.files.serializer.mode)) =
        [(true, .writing), (false, .writing)] := by
  intro source disk loaded effect
  have grounded : loaded.effect.Grounded {} :=
    grounded_load (grounded_new disk {}) "/script" false
  let base := loaded.effect.rig.code.nextProgram
  let table := loaded.effect.programs {}
  have closed : loaded.effect.isClosed {} = true := by decide +kernel
  have succeeded : (loaded.effect.compile {}).result.isOk = true := by decide +kernel
  have tells : effect.Tells base table := tells_compile grounded closed (result_of_isOk succeeded)
  have compiled : effect.isCompiled = true ∧ effect.hasInfo = true := by decide +kernel
  have save : Covers base table effect.saveSteps := by decide +kernel
  have run : Covers base table effect.saveSteps.dropLast := by decide +kernel
  have number : effect.programId? .serialize = some (base + 1) ∧ 1 < table.length := by
    decide +kernel
  have data := data_saveState_of_tells compiled.1 compiled.2 tells run
  have calls : effect.callsIn effect.saveSteps =
      (effect.evaluate base table effect.saveSteps).1 := by
    rw [evaluate_eq tells save]
  refine ⟨?_, ?_, ?_⟩
  · have listed := congrArg (Option.map fun bytes : ByteArray => bytes.data.toList) data
    rw [Option.map_map] at listed
    refine listed.trans ?_
    decide +kernel
  · rw [written, program?_of_tells tells number.1 number.2]
    decide +kernel
  · rw [calls]
    decide +kernel

end Effect
end EffectHost

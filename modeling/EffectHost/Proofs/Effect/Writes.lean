import EffectHost.Proofs.Effect.Grounded
import EffectHost.Proofs.Host.Targets

/-!
# What steps write to variables

The host writes to its variables in few kinds of steps, and code only to its targets.  All
other variables of the host keep their values through a list of steps.
-/

namespace EffectHost

namespace Store

/-- Writing to variables leaves the other cells alone. -/
theorem get_writeAll_of_not_mem {cell : Cell} {values : List (HostVariable × Float)}
    (absent : cell ∉ values.map fun entry => entry.1.cell) (store : Store) :
    (store.writeAll values).get cell = store.get cell := by
  induction values generalizing store with
  | nil => rfl
  | cons entry others ih =>
      rw [List.map_cons, List.mem_cons, not_or] at absent
      exact (ih absent.2 _).trans (get_set_of_ne store (Ne.symm absent.1) _)

theorem read_writeAll_of_not_mem {name : HostVariable} {values : List (HostVariable × Float)}
    (absent : name ∉ values.map Prod.fst) (store : Store) :
    (store.writeAll values).read name = store.read name := by
  apply get_writeAll_of_not_mem
  intro member
  rcases List.mem_map.mp member with ⟨entry, listed, same⟩
  exact absent (List.mem_map.mpr ⟨entry, listed, HostVariable.cell_injective same⟩)

/-- A variable that is written once has the value that was written. -/
theorem read_writeAll_of_mem {store : Store} (hosted : store.Hosted)
    {values : List (HostVariable × Float)} (distinct : (values.map Prod.fst).Nodup)
    {entry : HostVariable × Float} (member : entry ∈ values) :
    (store.writeAll values).read entry.1 = entry.2 := by
  induction values generalizing store with
  | nil => cases member
  | cons first others ih =>
      rw [List.map_cons, List.nodup_cons] at distinct
      rcases List.mem_cons.mp member with rfl | later
      · exact (read_writeAll_of_not_mem distinct.1 _).trans (read_write_self hosted _ _)
      · exact ih (hosted.write first.1 first.2) distinct.2 later

/-- Writing to variables leaves the memory and the texts alone. -/
theorem writeAll_keeps (store : Store) (values : List (HostVariable × Float)) :
    (store.writeAll values).memory = store.memory ∧
      (store.writeAll values).strings = store.strings := by
  induction values generalizing store with
  | nil => exact ⟨rfl, rfl⟩
  | cons entry others ih => exact ih (store.write entry.1 entry.2)

end Store

/-- The variables to which the host writes in a step. -/
def Step.writes : Step → List HostVariable
  | .begin => [.trigger]
  | .startInit => [.blockSize, .delay, .delayBottom, .delayTop, .delayMidi, .sampleRate]
  | .tell _ _ => [.blockSize, .channelCount]
  | .feed plan _ _ =>
    ((List.finRange channelVariables).take plan.declaredInputs).map HostVariable.channel
  | .restoreSliders _ => (List.finRange sliderSlots).map HostVariable.slider
  | _ => []

namespace Effect

variable {σ : Type}

/-- The step leaves the variable as it is. -/
def Spares (effect : Effect σ) (name : HostVariable) : Step → Prop
  | .run _ id => name.cell ∉ (effect.programOf id).targets
  | step => name ∉ step.writes

theorem spares_of_program? {effect : Effect σ} {name : HostVariable} {step : Step}
    (quiet : step.program? = none) (absent : name ∉ step.writes) : effect.Spares name step := by
  cases step with
  | run caller id => cases quiet
  | _ => exact absent

theorem Spares.of_keepsCode {before after : Effect σ} {name : HostVariable} {step : Step}
    (spares : before.Spares name step) (keeps : before.rig.KeepsCode after.rig) :
    after.Spares name step := by
  cases step with
  | run caller id =>
      rw [Spares, programOf_of_keepsCode keeps]
      exact spares
  | _ => exact spares

/-- Code leaves the variables of the host as they are that are none of its targets. -/
theorem read_run {effect : Effect σ} {program : Program} {name : HostVariable}
    (absent : name.cell ∉ program.targets) (notBus : name ≠ .midiBus) (caller : Caller) :
    (effect.run caller program).store.read name = effect.store.read name :=
  Code.run_spares (HostFunction.spares_call effect.facts caller
    fun same => notBus (HostVariable.cell_injective same)) absent (effect.store, effect.around)

section Sliders

variable {name : HostVariable}

theorem read_defaultSliders_of_ne (other : ∀ slot, HostVariable.slider slot ≠ name)
    (store : Store) (header : Header) :
    (defaultSliders store header).read name = store.read name :=
  defaultSliders_preserves (P := fun after => after.read name = store.read name)
    (fun slot value after _ same => (Store.read_write_of_ne after (other slot) value).trans same) rfl

theorem read_writeSliders_of_ne (other : ∀ slot, HostVariable.slider slot ≠ name)
    (store : Store) (header : Header) (values : List SliderValue) :
    (writeSliders store header values).read name = store.read name :=
  writeSliders_preserves (P := fun after => after.read name = store.read name)
    (fun slot value after _ same => (Store.read_write_of_ne after (other slot) value).trans same)
    rfl values

end Sliders

theorem read_startInit_of_not_mem {name : HostVariable} (absent : name ∉ Step.startInit.writes)
    (effect : Effect σ) : effect.startInit.store.read name = effect.store.read name := by
  have notRate : HostVariable.sampleRate ≠ name := by
    rintro rfl
    exact absent (by decide)
  rw [startInit]
  dsimp only
  rw [Store.read_write_of_ne _ notRate]
  split
  · apply Store.read_writeAll_of_not_mem
    intro member
    have listed : name ∈ [.blockSize, .delay, .delayBottom, .delayTop, .delayMidi] := member
    exact absent (List.mem_append_left [HostVariable.sampleRate] listed)
  · rfl

theorem keepsCode_performAll (effect : Effect σ) (steps : List Step) :
    effect.rig.KeepsCode (effect.performAll steps).rig := by
  induction steps generalizing effect with
  | nil => exact Rig.KeepsCode.refl effect.rig
  | cons step others ih => exact (keepsCode_perform effect step).trans (ih _)

/-- A step keeps the value of a variable that it spares. -/
theorem read_perform {effect : Effect σ} {step : Step} {name : HostVariable}
    (spares : effect.Spares name step) (notBus : name ≠ .midiBus) :
    (effect.perform step).store.read name = effect.store.read name := by
  cases step with
  | run caller id => exact read_run spares notBus caller
  | begin =>
      have other : HostVariable.trigger ≠ name :=
        fun same => spares (List.mem_singleton.mpr same.symm)
      exact Store.read_write_of_ne effect.store other _
  | startInit => exact read_startInit_of_not_mem spares effect
  | tell plan frames =>
      apply Store.read_writeAll_of_not_mem
      exact spares
  | feed plan inputs frame =>
      rw [perform, feedFrame_eq_writeAll]
      apply Store.read_writeAll_of_not_mem
      rw [List.map_map]
      exact spares
  | restoreSliders values =>
      have other : ∀ slot, HostVariable.slider slot ≠ name := by
        rintro slot rfl
        exact spares (List.mem_map_of_mem (List.mem_finRange slot))
      exact (read_writeSliders_of_ne other _ _ values).trans
        (read_defaultSliders_of_ne other effect.store effect.header)
  | passOn | noteInit | noteMoves | noteSlider | clearInput | beginSerialize | endSerialize => rfl

/-- Steps keep the value of a variable that each of them spares. -/
theorem read_performAll {effect : Effect σ} {steps : List Step} {name : HostVariable}
    (spares : ∀ step ∈ steps, effect.Spares name step) (notBus : name ≠ .midiBus) :
    (effect.performAll steps).store.read name = effect.store.read name := by
  induction steps generalizing effect with
  | nil => rfl
  | cons step others ih =>
      rw [List.forall_mem_cons] at spares
      have keeps := keepsCode_perform effect step
      exact (ih fun next member => (spares.2 next member).of_keepsCode keeps).trans
        (read_perform spares.1 notBus)

end Effect
end EffectHost

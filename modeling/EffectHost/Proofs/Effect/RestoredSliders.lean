import EffectHost.Proofs.Effect.SliderValues
import EffectHost.Proofs.Effect.Writes

/-!
# Sliders of a restored state

A state comes from a file or another host, and its list of sliders need not be one that the
script would save: it may be in any order, have slots twice, and have slots that the script
does not declare or that there are not.  Restoring it resets the declared sliders and then goes
through the list.  So the last entry for a declared slider counts, and no other cell is touched.
-/

namespace EffectHost

/-- The value that entries give to a slot, which is that of the last one for it. -/
def SliderValue.lastFor? (slot : Fin sliderSlots) (entries : List SliderValue) : Option Float :=
  (entries.filter fun entry => entry.slot.toNat = slot.val).getLast?.map SliderValue.value

/-- An entry counts for its slot where no later one does. -/
theorem SliderValue.lastFor?_cons (slot : Fin sliderSlots) (entry : SliderValue)
    (others : List SliderValue) :
    lastFor? slot (entry :: others) =
      (lastFor? slot others).or (if entry.slot.toNat = slot.val then some entry.value else none) := by
  rw [lastFor?, lastFor?, List.filter_cons]
  by_cases own : entry.slot.toNat = slot.val
  · rw [if_pos own, if_pos (decide_eq_true own), List.getLast?_cons]
    cases (others.filter fun entry => entry.slot.toNat = slot.val).getLast? <;> rfl
  · rw [if_neg own, if_neg (by simpa using own), Option.or_none]

namespace Effect

variable {σ : Type} {painter : Painter σ} {config : Config}

/-! ## Going through entries -/

/-- Entries leave the cells of all but the declared sliders alone. -/
theorem get_writeSliders_of_not_declares {header : Header} {cell : Cell}
    (other : ¬ header.Declares cell) (entries : List SliderValue) (store : Store) :
    (writeSliders store header entries).get cell = store.get cell :=
  writeSliders_preserves (P := fun after => after.get cell = store.get cell)
    (fun _ value after declared same =>
      (get_write_of_not_declares other declared after value).trans same) rfl entries

/-- A declared slider gets the last value that there is for it. -/
theorem read_writeSliders {header : Header} {slot : Fin sliderSlots}
    (declared : (header.sliders.get slot).declared = true) (entries : List SliderValue)
    {store : Store} (hosted : store.Hosted) :
    (writeSliders store header entries).read (.slider slot) =
      (SliderValue.lastFor? slot entries).getD (store.read (.slider slot)) := by
  induction entries generalizing store with
  | nil => rfl
  | cons entry others ih =>
      rw [SliderValue.lastFor?_cons]
      rcases exists_declared_or header entry with ⟨place, own, known⟩ | undeclared
      · rw [writeSliders_cons_of_declared own known, ih (hosted.write _ _)]
        by_cases same : place = slot
        · rw [same, Store.read_write_self hosted, if_pos (same ▸ own)]
          cases SliderValue.lastFor? slot others <;> rfl
        · have different : entry.slot.toNat ≠ slot.val :=
            fun equal => same (Fin.ext (own.symm.trans equal))
          rw [if_neg different, Option.or_none,
            Store.read_write_of_ne store fun equal => same (HostVariable.slider.inj equal)]
      · have different : entry.slot.toNat ≠ slot.val := by
          intro own
          rw [undeclared slot own] at declared
          cases declared
        rw [writeSliders_cons_of_undeclared undeclared, ih hosted, if_neg different,
          Option.or_none]

/-! ## Restoring -/

/-- Without a section that reads the data, restoring a state does nothing else. -/
theorem serialize_of_nothing {effect : Effect σ} (nothing : effect.programId? .serialize = none)
    (mode : SerializeMode) (data : ByteArray) :
    (effect.serialize mode data).2 = { effect with
      around := { effect.around with
        files := { effect.around.files with serializer := {} } } } := by
  have begun : (effect.beginSerialize mode data).programId? .serialize = none := nothing
  rw [serialize, runSerialize, begun]
  rfl

/-- No serialize code is compiled where the script has no serialize section. -/
theorem Grounded.programId?_serialize {effect : Effect σ} (grounded : effect.Grounded config)
    (compiled : effect.isCompiled = true)
    (plain : effect.rig.script?.any (·.has .serialize) = false) :
    effect.programId? .serialize = none := by
  rcases grounded.compiled compiled with ⟨script, known, has⟩
  rw [known, Option.any_some] at plain
  have absent := mt (has .serialize nofun nofun) (ne_true_of_eq_false plain)
  rwa [Bool.not_eq_true, Option.isSome_eq_false_iff, Option.isNone_iff_eq_none] at absent

/-- Restoring a state into a compiled script without a serialize section, or with one that was
left out when it was compiled, sets every declared slider to the last value that the state has
for it, or else to its default.  All other cells, the memory and the texts stay as they are.  The
slider section is due, and the serializer is idle and empty.  Without compiled code nothing
happens, and the result says so. -/
theorem restoring_sets_declared_sliders {effect : Effect σ}
    (reached : Reached painter config effect) (state : EffectState) :
    (effect.isCompiled = true → (effect.rig.script?.any (·.has .serialize) = false ∨
        effect.programId? .serialize = none) → ∃ store : Store,
      effect.loadState state = (true,
        { store := store
          around := { effect.around with
            files := { effect.around.files with serializer := { mode := .idle, stream := {} } } }
          rig := { effect.rig with pending := { effect.rig.pending with slider := true } } }) ∧
      (∀ slot : Fin sliderSlots, (effect.header.sliders.get slot).declared = true →
        store.read (.slider slot) = (SliderValue.lastFor? slot state.sliders).getD
          (effect.header.sliders.get slot).default) ∧
      (∀ cell : Cell, ¬ effect.header.Declares cell → store.get cell = effect.store.get cell) ∧
      store.memory = effect.store.memory ∧ store.strings = effect.store.strings) ∧
    (effect.isCompiled = false → effect.loadState state = (false, effect)) := by
  have grounded := reached.grounded
  constructor
  · intro compiled plain
    have nothing : effect.programId? .serialize = none :=
      plain.elim (grounded.programId?_serialize compiled) id
    have informed := grounded.hasInfo compiled
    let reset := defaultSliders effect.store effect.header
    have hosted : reset.Hosted :=
      grounded.hosted.of_sameShape (sameShape_defaultSliders effect.store effect.header)
    rcases defaultSliders_keeps effect.store effect.header with ⟨memory, strings⟩
    rcases writeSliders_keeps reset effect.header state.sliders with ⟨kept, keptStrings⟩
    refine ⟨writeSliders reset effect.header state.sliders, ?_, ?_, ?_, kept.trans memory,
      keptStrings.trans strings⟩
    · let moved := { effect with store := writeSliders reset effect.header state.sliders }
      let noted := moved.updatePending fun pending => { pending with slider := true }
      have unread : noted.programId? .serialize = none := nothing
      rw [loadState, compiled, informed]
      exact congrArg (Prod.mk true) (serialize_of_nothing unread .reading state.data)
    · intro slot declared
      rw [read_writeSliders declared state.sliders hosted,
        read_defaultSliders grounded.hosted declared]
    · intro cell other
      rw [get_writeSliders_of_not_declares other, get_defaultSliders other]
  · intro absent
    rw [loadState, absent]
    rfl

/-- Two sliders with an undeclared one between them.  The state has the first slider twice, the
undeclared slot, and a slot that there is not. -/
theorem restoring_sets_declared_sliders_repeated :
    let painter : Painter Unit :=
      { size := fun _ => (4, 3), scale := fun _ => 1.0, reset := fun surface => surface
        call := fun _ _ effect => (0.0, effect)
        takeDirty := fun surface => (true, surface) }
    let disk := Disk.empty.addFile ["script"]
      "slider1:1<0,9>A\nslider3:5<0,9>C\n@init\nslider2 = 7;\n".toUTF8
    let loaded := (Effect.new disk {}).after painter [.load "/script" false]
    let effect := (loaded.compile {}).effect
    let state : EffectState := { sliders := [⟨0, 2.0⟩, ⟨1, 3.0⟩, ⟨64, 4.0⟩, ⟨0, 6.0⟩] }
    Reached painter {} effect ∧ effect.rig.script?.any (·.has .serialize) = false ∧
      effect.isCompiled = true ∧ ∃ restored, effect.loadState state = (true, restored) ∧
        restored.store.read (.slider 0) = 6.0 ∧
        restored.store.read (.slider 1) = effect.store.read (.slider 1) ∧
        restored.store.read (.slider 2) = (effect.header.sliders.get 2).default ∧
        restored.rig.pending.slider = true := by
  intro painter disk loaded effect state
  have confined : painter.Confined := fun _ _ _ => ⟨[], rfl⟩
  have reached : Reached painter {} effect := (reached_after confined disk {} _).compile {}
  have plain : effect.rig.script?.any (·.has .serialize) = false := by decide +kernel
  have compiled : effect.isCompiled = true := by decide +kernel
  have first : (effect.header.sliders.get 0).declared = true := by decide +kernel
  have second : (effect.header.sliders.get 1).declared = false := by decide +kernel
  have third : (effect.header.sliders.get 2).declared = true := by decide +kernel
  have undeclared : ¬ effect.header.Declares (HostVariable.slider 1).cell := by
    rintro ⟨slot, declared, same⟩
    rw [← HostVariable.slider.inj (HostVariable.cell_injective same), second] at declared
    cases declared
  rcases (restoring_sets_declared_sliders reached state).1 compiled (.inl plain) with
    ⟨store, done, sliders, others, _⟩
  exact ⟨reached, plain, compiled, _, done, sliders 0 first, others _ undeclared,
    sliders 2 third, rfl⟩

end Effect
end EffectHost

import EffectHost.Proofs.Effect.Grounded
import EffectHost.Proofs.Host.Rounding

/-!
# Slider values

The values of a state are those of the declared sliders.  Writing them over the defaults
puts every cell back where it was, so that all sliders can be reset first.
-/

namespace EffectHost

open Number

/-- The cell is that of a slider that the header declares. -/
def Header.Declares (header : Header) (cell : Cell) : Prop :=
  ∃ slot : Fin sliderSlots, (header.sliders.get slot).declared = true ∧
    cell = (HostVariable.slider slot).cell

namespace Header

/-- The slots of the declared sliders. -/
def declaredSlots (header : Header) : List (Fin sliderSlots) :=
  (List.finRange sliderSlots).filter fun slot => (header.sliders.get slot).declared

theorem declaredSliders_eq (header : Header) :
    header.declaredSliders = header.declaredSlots.map fun slot => header.sliders.get slot := by
  have all : header.sliders.toList =
      (List.finRange sliderSlots).map fun slot => header.sliders.get slot := by
    apply List.ext_getElem
    · simp
    · intro position _ _
      simp [Vector.get_eq_getElem]
  rw [declaredSliders, declaredSlots, all, List.filter_map]
  rfl

end Header

namespace Effect

variable {σ : Type}

/-- The value that a state has for a slot. -/
def slotValue (store : Store) (slot : Fin sliderSlots) : SliderValue :=
  ⟨UInt32.ofNat slot.val, store.read (.slider slot)⟩

theorem sliderValues_eq {effect : Effect σ} (slotted : effect.header.Slotted) :
    effect.sliderValues = effect.header.declaredSlots.map (slotValue effect.store) := by
  rw [sliderValues, Header.declaredSliders_eq, List.map_map]
  apply List.map_congr_left
  intro slot _
  have own : (effect.header.sliders.get slot).slot = slot := slotted slot
  have value : effect.sliderValue slot.val = effect.store.read (.slider slot) := by
    rw [sliderValue, dif_pos slot.isLt]
  rw [Function.comp_apply, own, value, slotValue]

theorem get_write_of_not_declares {header : Header} {cell : Cell}
    (other : ¬ header.Declares cell) {slot : Fin sliderSlots}
    (declared : (header.sliders.get slot).declared = true) (store : Store) (value : Float) :
    (store.write (.slider slot) value).get cell = store.get cell :=
  Store.get_set_of_ne store (fun same => other ⟨slot, declared, same.symm⟩) value

theorem get_defaultSliders {header : Header} {cell : Cell} (other : ¬ header.Declares cell)
    (store : Store) : (defaultSliders store header).get cell = store.get cell :=
  defaultSliders_preserves (P := fun after => after.get cell = store.get cell)
    (fun _ value after declared same =>
      (get_write_of_not_declares other declared after value).trans same) rfl

/-- A declared slider gets its default. -/
theorem read_defaultSliders {store : Store} (hosted : store.Hosted) {header : Header}
    {slot : Fin sliderSlots} (declared : (header.sliders.get slot).declared = true) :
    (defaultSliders store header).read (.slider slot) =
      (header.sliders.get slot).default := by
  have onward : ∀ (slots : List (Fin sliderSlots)) (store : Store), store.Hosted →
      (slot ∈ slots ∨ store.read (.slider slot) = (header.sliders.get slot).default) →
      (slots.foldl (fun store slot =>
        let slider := header.sliders.get slot
        if slider.declared then store.write (.slider slot) slider.default else store)
        store).read (.slider slot) = (header.sliders.get slot).default := by
    intro slots
    induction slots with
    | nil => exact fun store _ covered => covered.resolve_left List.not_mem_nil
    | cons first others ih =>
        intro store hosted covered
        by_cases own : slot = first
        · subst own
          rw [List.foldl_cons]
          dsimp only
          rw [if_pos declared]
          exact ih _ (hosted.write _ _) (.inr (Store.read_write_self hosted _ _))
        · have rest : slot ∈ others ∨
              store.read (.slider slot) = (header.sliders.get slot).default :=
            covered.imp_left fun member => (List.mem_cons.mp member).resolve_left own
          rw [List.foldl_cons]
          dsimp only
          split
          · apply ih
            · exact hosted.write _ _
            · refine rest.imp_right fun same => ?_
              rw [Store.read_write_of_ne store (fun same => own ?_)]
              · exact same
              · exact (HostVariable.slider.inj same).symm
          · exact ih store hosted rest
  exact onward _ store hosted (.inl (List.mem_finRange slot))

section Entries

variable {store : Store} {header : Header} {entry : SliderValue} {others : List SliderValue}

/-- An entry for a declared slider sets its cell. -/
theorem writeSliders_cons_of_declared {slot : Fin sliderSlots} (own : entry.slot.toNat = slot.val)
    (declared : (header.sliders.get slot).declared = true) :
    writeSliders store header (entry :: others) =
      writeSliders (store.write (.slider slot) entry.value) header others := by
  have inside : entry.slot.toNat < sliderSlots := own ▸ slot.isLt
  have same : (⟨entry.slot.toNat, inside⟩ : Fin sliderSlots) = slot := Fin.ext own
  have known : header.sliders[entry.slot.toNat].declared = true := by
    rw [← same] at declared
    exact declared
  rw [writeSliders, List.foldl_cons, dif_pos inside, if_pos known, same, ← writeSliders]

/-- An entry for anything else is passed over. -/
theorem writeSliders_cons_of_undeclared (undeclared : ∀ slot : Fin sliderSlots,
      entry.slot.toNat = slot.val → (header.sliders.get slot).declared = false) :
    writeSliders store header (entry :: others) = writeSliders store header others := by
  rw [writeSliders, List.foldl_cons, ← writeSliders]
  split
  · next inside =>
      have unknown : header.sliders[entry.slot.toNat].declared = false :=
        undeclared ⟨entry.slot.toNat, inside⟩ rfl
      rw [if_neg (ne_true_of_eq_false unknown)]
  · rfl

/-- An entry is for a declared slider, or for none. -/
theorem exists_declared_or (header : Header) (entry : SliderValue) :
    (∃ slot : Fin sliderSlots, entry.slot.toNat = slot.val ∧
      (header.sliders.get slot).declared = true) ∨
    ∀ slot : Fin sliderSlots, entry.slot.toNat = slot.val →
      (header.sliders.get slot).declared = false := by
  by_cases some : ∃ slot : Fin sliderSlots, entry.slot.toNat = slot.val ∧
      (header.sliders.get slot).declared = true
  · exact .inl some
  · refine .inr fun slot own => Bool.eq_false_iff.mpr fun declared => some ⟨slot, own, declared⟩

end Entries

theorem toNat_slotValue (store : Store) (slot : Fin sliderSlots) :
    (slotValue store slot).slot.toNat = slot.val := by
  have small := slot.isLt
  simp only [sliderSlots] at small
  exact Nat.mod_eq_of_lt (by omega)

/-- Writing the value of a store leaves that value in its cell. -/
theorem get_write_slotValue {store origin : Store} (hosted : store.Hosted)
    (slot : Fin sliderSlots) {cell : Cell}
    (covered : store.get cell = origin.get cell ∨ cell = (HostVariable.slider slot).cell) :
    (store.write (.slider slot) (origin.read (.slider slot))).get cell = origin.get cell := by
  by_cases own : cell = (HostVariable.slider slot).cell
  · rw [own]
    exact Store.read_write_self hosted (.slider slot) _
  · rw [Store.write, Store.get_set_of_ne _ (Ne.symm own)]
    exact covered.resolve_right own

/-- Writing values of a store puts these values back, in whatever order. -/
theorem get_writeSliders {header : Header} {origin : Store} {cell : Cell}
    (slots : List (Fin sliderSlots)) {store : Store} (hosted : store.Hosted)
    (covered : store.get cell = origin.get cell ∨ ∃ slot ∈ slots,
      (header.sliders.get slot).declared = true ∧ cell = (HostVariable.slider slot).cell) :
    (writeSliders store header (slots.map (slotValue origin))).get cell = origin.get cell := by
  induction slots generalizing store with
  | nil =>
      rcases covered with same | ⟨slot, member, _⟩
      · exact same
      · cases member
  | cons first others ih =>
      have own := toNat_slotValue origin first
      rw [List.map_cons]
      by_cases declared : (header.sliders.get first).declared = true
      · rw [writeSliders_cons_of_declared own declared]
        apply ih (hosted.write _ _)
        rcases covered with same | ⟨slot, member, known, own⟩
        · exact Or.inl (get_write_slotValue hosted first (Or.inl same))
        · rcases List.mem_cons.mp member with here | behind
          · exact Or.inl (get_write_slotValue hosted first (Or.inr (here ▸ own)))
          · exact Or.inr ⟨slot, behind, known, own⟩
      · rw [writeSliders_cons_of_undeclared fun slot same =>
          Fin.ext (own.symm.trans same) ▸ Bool.eq_false_iff.mpr declared]
        apply ih hosted
        rcases covered with same | ⟨slot, member, known, own⟩
        · exact Or.inl same
        · rcases List.mem_cons.mp member with here | behind
          · exact absurd (here ▸ known) declared
          · exact Or.inr ⟨slot, behind, known, own⟩

/-- Sliders are neither memory nor texts. -/
theorem defaultSliders_keeps (store : Store) (header : Header) :
    (defaultSliders store header).memory = store.memory ∧
      (defaultSliders store header).strings = store.strings :=
  defaultSliders_preserves
    (P := fun after => after.memory = store.memory ∧ after.strings = store.strings)
    (fun _ _ _ _ same => same) ⟨rfl, rfl⟩

theorem writeSliders_keeps (store : Store) (header : Header) (values : List SliderValue) :
    (writeSliders store header values).memory = store.memory ∧
      (writeSliders store header values).strings = store.strings :=
  writeSliders_preserves
    (P := fun after => after.memory = store.memory ∧ after.strings = store.strings)
    (fun _ _ _ _ same => same) ⟨rfl, rfl⟩ values

/-- Sliders that are reset and then set to the values of a store leave the store as it was,
as far as it can be told. -/
theorem restored_restoreSliders {store : Store} (hosted : store.Hosted) (header : Header) :
    Store.Restored (fun _ => False) store
      (writeSliders (defaultSliders store header) header
        (header.declaredSlots.map (slotValue store))) := by
  have same : ∀ cell, (writeSliders (defaultSliders store header) header
      (header.declaredSlots.map (slotValue store))).get cell = store.get cell := by
    intro cell
    apply get_writeSliders
    · exact hosted.of_sameShape (sameShape_defaultSliders store header)
    · by_cases declares : header.Declares cell
      · rcases declares with ⟨slot, declared, own⟩
        refine Or.inr ⟨slot, ?_, declared, own⟩
        exact List.mem_filter.mpr ⟨List.mem_finRange slot, declared⟩
      · exact Or.inl (get_defaultSliders declares store)
  rcases defaultSliders_keeps store header with ⟨memory, strings⟩
  rcases writeSliders_keeps (defaultSliders store header) header
    (header.declaredSlots.map (slotValue store)) with ⟨sameMemory, sameStrings⟩
  refine ⟨fun _ => False.elim, fun cell _ => same cell, ?_, ?_⟩
  · rw [sameMemory, memory]
    exact .refl store.memory
  · intro id
    rw [sameStrings, strings]

end Effect
end EffectHost

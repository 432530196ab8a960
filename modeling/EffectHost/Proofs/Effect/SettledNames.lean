import EffectHost.Host.Alias
import EffectHost.Proofs.Effect.HostNames
import EffectHost.Proofs.Host.Variables

/-!
# Names that are settled before any code

Every variable of the host has a name of its own, which denotes its cell.  The variable name of a
declared slider denotes the cell of the slider, in small letters or capital ones.
-/

namespace EffectHost

/-! ## Names of the host -/

namespace HostVariable

theorem channel_ne_slider (index slot : Nat) :
    "spl" ++ toString index ≠ "slider" ++ toString slot := by
  intro same
  have chars := congrArg String.toList same
  rw [String.toList_append, String.toList_append] at chars
  exact absurd (List.cons.inj (List.cons.inj chars).2).1 (by decide)

/-- No other name is one of a channel or a slider. -/
theorem name_of_named : ∀ told ∈ named.map Prod.fst,
    ¬ "spl".toList <+: (name told).toList ∧ ¬ "slider".toList <+: (name told).toList ∧
      ∀ other ∈ named.map Prod.fst, name other = name told → other = told := by
  decide

/-- A variable that is neither a channel nor a slider has one of the other names. -/
theorem mem_named (told : HostVariable) :
    (∃ index, told = .channel index) ∨ (∃ slot, told = .slider slot) ∨
      told ∈ named.map Prod.fst := by
  cases told with
  | channel index => exact .inl ⟨index, rfl⟩
  | slider slot => exact .inr (.inl ⟨slot, rfl⟩)
  | _ => exact .inr (.inr (by decide))

/-- No two variables share a name. -/
theorem name_injective {first second : HostVariable} (same : first.name = second.name) :
    first = second := by
  rcases mem_named first with ⟨index, rfl⟩ | ⟨slot, rfl⟩ | member
  · rcases mem_named second with ⟨other, rfl⟩ | ⟨slot, rfl⟩ | other
    · have numbers := (String.append_right_inj _).mp same
      rw [Nat.toString_eq_repr, Nat.toString_eq_repr, Nat.repr_inj] at numbers
      rw [Fin.ext numbers]
    · exact absurd same (channel_ne_slider _ _)
    · refine absurd ?_ (name_of_named second other).1
      rw [← same, name, String.toList_append]
      exact List.prefix_append _ _
  · rcases mem_named second with ⟨index, rfl⟩ | ⟨other, rfl⟩ | other
    · exact absurd same.symm (channel_ne_slider _ _)
    · have numbers := (String.append_right_inj _).mp same
      rw [Nat.toString_eq_repr, Nat.toString_eq_repr, Nat.repr_inj] at numbers
      rw [Fin.ext (Nat.add_right_cancel numbers)]
    · refine absurd ?_ (name_of_named second other).2.1
      rw [← same, name, Slider.standardName, String.toList_append]
      exact List.prefix_append _ _
  · rcases mem_named second with ⟨index, rfl⟩ | ⟨slot, rfl⟩ | other
    · refine absurd ?_ (name_of_named first member).1
      rw [same, name, String.toList_append]
      exact List.prefix_append _ _
    · refine absurd ?_ (name_of_named first member).2.1
      rw [same, name, Slider.standardName, String.toList_append]
      exact List.prefix_append _ _
    · exact (name_of_named second other).2.2 first member same

theorem mem_all (told : HostVariable) : told ∈ all :=
  List.mem_of_getElem? (all_getElem?_index told)

/-- The name of a variable denotes its cell, and no other name does. -/
theorem cellOfName?_eq_some {name : String} {cell : Cell} :
    cellOfName? name = some cell ↔ ∃ told : HostVariable, told.name = name ∧ told.cell = cell := by
  rw [cellOfName?, Option.map_eq_some_iff]
  constructor
  · rintro ⟨told, found, own⟩
    have named := List.find?_some (p := fun told : HostVariable => told.name == name) found
    exact ⟨told, beq_iff_eq.mp named, own⟩
  · rintro ⟨told, named, own⟩
    have some : (all.reverse.find? fun told => told.name == name).isSome := by
      rw [List.find?_isSome]
      exact ⟨told, List.mem_reverse.mpr told.mem_all, beq_iff_eq.mpr named⟩
    rcases Option.isSome_iff_exists.mp some with ⟨other, found⟩
    have same := List.find?_some (p := fun told : HostVariable => told.name == name) found
    rw [name_injective ((beq_iff_eq.mp same).trans named.symm)] at found
    exact ⟨told, found, own⟩

end HostVariable

namespace Machine

/-- The names of the host, and the cells that they denote. -/
theorem names_hosted_eq_some {name : String} {cell : Cell} :
    hosted.code.names[name]? = some cell ↔
      ∃ told : HostVariable, told.name = name ∧ told.cell = cell := by
  rw [← HostVariable.cellOfName?_eq_some]
  have listed := getElem?_foldl_insert HostVariable.all ∅ name
  rw [← HostVariable.cellOfName?, Std.HashMap.getElem?_empty, Option.or_none] at listed
  exact Eq.congr_left listed

/-- A machine that knows the names of the host and no others keeps names apart. -/
theorem separated_of_names {machine : Machine} (hosted' : machine.store.Hosted)
    (names : ∀ name : String, machine.code.names[name]? = hosted.code.names[name]?) :
    machine.Separated where
  there name cell known := by
    rw [names, names_hosted_eq_some] at known
    rcases known with ⟨told, _, rfl⟩
    exact Nat.lt_of_lt_of_le told.index_lt_length hosted'
  apart first second cell known knownToo := by
    rw [names, names_hosted_eq_some] at known knownToo
    rcases known with ⟨told, rfl, rfl⟩
    rcases knownToo with ⟨other, rfl, same⟩
    rw [HostVariable.cell_injective same]

end Machine

/-! ## Names of sliders -/

namespace SliderAliases

open Text

theorem lookup_filter {entries : List (String × Nat)} {key other : String} (different : other ≠ key) :
    (entries.filter fun entry => entry.1 != key).lookup other = entries.lookup other := by
  induction entries with
  | nil => rfl
  | cons entry others ih =>
      rw [List.filter_cons]
      split
      · rw [List.lookup_cons, List.lookup_cons, ih]
      · next dropped =>
          have own : entry.1 = key := by simpa using dropped
          have unlike : (other == entry.1) = false := beq_eq_false_iff_ne.mpr (own ▸ different)
          rw [ih, List.lookup_cons, unlike]

/-- A name that is given to a slider changes hands, and no other name does. -/
theorem slot?_add (aliases : SliderAliases) (name : String) (slot : Nat) (other : String) :
    (aliases.add name slot).slot? other =
      if asciiLower name = asciiLower other then some slot else aliases.slot? other := by
  rw [slot?, add, List.lookup_cons]
  by_cases same : asciiLower name = asciiLower other
  · rw [if_pos same, same, beq_self_eq_true]
  · have unlike : (asciiLower other == asciiLower name) = false :=
      beq_eq_false_iff_ne.mpr (Ne.symm same)
    rw [if_neg same, unlike, slot?]
    exact lookup_filter (Ne.symm same)

/-- A name is that of the last declared slider that has it. -/
theorem slot?_ofHeader (header : Header) (name : String) :
    (ofHeader header).slot? name =
      (header.declaredSliders.reverse.find? fun slider =>
        decide (asciiLower slider.variableName = asciiLower name)).map Slider.slot := by
  have added : ∀ (sliders : List Slider) (aliases : SliderAliases),
      (sliders.foldl (fun aliases slider => aliases.add slider.variableName slider.slot)
        aliases).slot? name =
          ((sliders.reverse.find? fun slider =>
            decide (asciiLower slider.variableName = asciiLower name)).map Slider.slot).or
              (aliases.slot? name) := by
    intro sliders
    induction sliders with
    | nil => exact fun _ => rfl
    | cons slider others ih =>
        intro aliases
        rw [List.foldl_cons, ih, slot?_add, List.reverse_cons, List.find?_append]
        cases others.reverse.find? fun slider =>
            decide (asciiLower slider.variableName = asciiLower name) with
        | some later => rfl
        | none =>
            by_cases own : asciiLower slider.variableName = asciiLower name <;> simp [own]
  rw [ofHeader, added]
  exact Option.or_none

/-- A name that no declared slider has denotes none. -/
theorem cell?_eq_none {header : Header} {name : String}
    (unused : ∀ slider ∈ header.declaredSliders,
      asciiLower slider.variableName ≠ asciiLower name) : (ofHeader header).cell? name = none := by
  have missing : (header.declaredSliders.reverse.find? fun slider =>
      decide (asciiLower slider.variableName = asciiLower name)) = none := by
    rw [List.find?_eq_none]
    intro slider member own
    exact unused slider (List.mem_reverse.mp member) (of_decide_eq_true own)
  rw [cell?, slot?_ofHeader, missing]
  rfl

/-- A name that one declared slider has and no other denotes its cell. -/
theorem cell?_eq_some {header : Header} {name : String} {slot : Fin sliderSlots}
    (used : ∃ slider ∈ header.declaredSliders,
      asciiLower slider.variableName = asciiLower name)
    (alone : ∀ slider ∈ header.declaredSliders,
      asciiLower slider.variableName = asciiLower name → slider.slot = slot) :
    (ofHeader header).cell? name = some (HostVariable.slider slot).cell := by
  have some : (header.declaredSliders.reverse.find? fun slider =>
      decide (asciiLower slider.variableName = asciiLower name)).isSome := by
    rcases used with ⟨slider, member, own⟩
    rw [List.find?_isSome]
    exact ⟨slider, List.mem_reverse.mpr member, decide_eq_true own⟩
  rcases Option.isSome_iff_exists.mp some with ⟨slider, found⟩
  have own := List.find?_some (p := fun slider : Slider =>
    decide (asciiLower slider.variableName = asciiLower name)) found
  have taken := alone slider (List.mem_reverse.mp (List.mem_of_find?_eq_some found))
    (of_decide_eq_true own)
  rw [cell?, slot?_ofHeader, found, Option.map_some, taken]
  exact dif_pos slot.isLt

end SliderAliases
end EffectHost

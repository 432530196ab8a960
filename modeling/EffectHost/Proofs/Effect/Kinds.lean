import EffectHost.Effect.Sections

/-!
# Programs by kind

The programs of a compiled script are asked for by kind.  Taken together the lists of all
kinds hold every program once, in another order.  Of every kind but init there is one
section at most, so that asking for a single program misses none.
-/

namespace EffectHost

theorem ScriptUnit.kind_of_section? {unit : ScriptUnit} {kind : SectionKind} {part : Section}
    (found : unit.section? kind = some part) : part.kind = kind := by
  rw [section?] at found
  have same := List.find?_some found
  exact beq_iff_eq.mp same

namespace LoadedScript

variable {script : LoadedScript} {kind : SectionKind}

theorem kind_of_section? {part : Section} (found : script.section? kind = some part) :
    part.kind = kind := by
  rcases List.exists_of_findSome?_eq_some found with ⟨unit, _, own⟩
  exact ScriptUnit.kind_of_section? own

theorem kind_of_mem_initSections {part : Section} (member : part ∈ script.initSections) :
    part.kind = .init := by
  rcases List.mem_filterMap.mp member with ⟨unit, _, own⟩
  exact ScriptUnit.kind_of_section? own

/-- Of every kind but init the section that is compiled is the one that counts. -/
theorem section?_of_mem_sectionsToCompile {options : CompileOptions} {part : Section}
    (member : part ∈ script.sectionsToCompile options) (notInit : part.kind ≠ .init) :
    script.section? part.kind = some part := by
  rcases List.mem_append.mp member with init | other
  · exact absurd (kind_of_mem_initSections init) notInit
  · rcases List.mem_filterMap.mp other with ⟨asked, _, answer⟩
    rw [kind_of_section? answer]
    exact answer

/-- One section at most is found for each kind that is asked for. -/
theorem kinds_sublist (script : LoadedScript) (kinds : List SectionKind) :
    ((kinds.filterMap script.section?).map Section.kind).Sublist kinds := by
  induction kinds with
  | nil => exact List.Sublist.refl []
  | cons kind others ih =>
      rw [List.filterMap_cons]
      split
      · exact ih.cons kind
      · next part found =>
          rw [List.map_cons, kind_of_section? found]
          exact ih.cons_cons kind

/-- Of every kind but init one section at most is compiled. -/
theorem count_kinds_le (script : LoadedScript) (options : CompileOptions)
    (notInit : kind ≠ .init) :
    ((script.sectionsToCompile options).map Section.kind).count kind ≤ 1 := by
  have inits : (script.initSections.map Section.kind).count kind = 0 := by
    apply List.count_eq_zero.mpr
    intro member
    rcases List.mem_map.mp member with ⟨part, own, same⟩
    exact notInit (same.symm.trans (kind_of_mem_initSections own))
  have kinds := (kinds_sublist script (SectionKind.single.filter options.includes)).trans
    List.filter_sublist
  have once : SectionKind.single.count kind ≤ 1 := by
    cases kind <;> decide
  rw [sectionsToCompile, List.map_append, List.count_append, inits, Nat.zero_add]
  exact Nat.le_trans (kinds.count_le kind) once

end LoadedScript

namespace CompiledSections

/-- Asked for by kind, every program is met once. -/
theorem perm_ids (sections : CompiledSections) :
    (SectionKind.all.flatMap sections.ofKind).Perm sections.ids := by
  rcases sections with ⟨programs⟩
  -- Each program adds one to the count of its number, on the left in the list of its kind.
  apply List.perm_iff_count.mpr
  intro id
  induction programs with
  | nil => rfl
  | cons entry others ih =>
      rcases entry with ⟨kind, other⟩
      simp only [SectionKind.all, List.flatMap_cons, List.flatMap_nil, List.count_append,
        ids, ofKind] at ih
      cases kind <;>
        · simp only [SectionKind.all, List.flatMap_cons, List.flatMap_nil, List.count_append,
            ids, ofKind, List.filterMap_cons, List.map_cons, List.count_cons, reduceCtorEq,
            if_true, if_false]
          omega

theorem mem_programs_of_mem_ofKind {sections : CompiledSections} {kind : SectionKind}
    {id : Nat} (member : id ∈ sections.ofKind kind) : (kind, id) ∈ sections.programs := by
  rcases List.mem_filterMap.mp member with ⟨⟨other, number⟩, own, taken⟩
  dsimp only at taken
  split at taken
  · next same =>
      cases taken
      rw [← same]
      exact own
  · cases taken

theorem mem_ids_of_mem_ofKind {sections : CompiledSections} {kind : SectionKind} {id : Nat}
    (member : id ∈ sections.ofKind kind) : id ∈ sections.ids := by
  apply sections.perm_ids.mem_iff.mp
  exact List.mem_flatMap.mpr ⟨kind, SectionKind.mem_all kind, member⟩

theorem length_ofKind (sections : CompiledSections) (kind : SectionKind) :
    (sections.ofKind kind).length = (sections.programs.map Prod.fst).count kind := by
  rcases sections with ⟨programs⟩
  induction programs with
  | nil => rfl
  | cons entry others ih =>
      rcases entry with ⟨other, id⟩
      change ((others.filterMap _).length = _) at ih
      rw [ofKind, List.filterMap_cons, List.map_cons, List.count_cons]
      by_cases same : other = kind
      · simp [same, ih]
      · simp [same, ih]

/-- Where there is one program of a kind at most, asking for a single one finds all. -/
theorem toList_single? {sections : CompiledSections} {kind : SectionKind}
    (few : (sections.programs.map Prod.fst).count kind ≤ 1) :
    (sections.single? kind).toList = sections.ofKind kind := by
  rw [← length_ofKind] at few
  rw [single?]
  cases found : sections.ofKind kind with
  | nil => rfl
  | cons id others =>
      rw [found, List.length_cons] at few
      have alone : others = [] := List.length_eq_zero_iff.mp (by omega)
      rw [alone]
      rfl

/-- Taking the drawing program away leaves the programs of every other kind. -/
theorem ofKind_takeDrawing (sections : CompiledSections) {kind : SectionKind}
    (other : kind ≠ .gfx) : sections.takeDrawing.2.ofKind kind = sections.ofKind kind := by
  rw [takeDrawing, ofKind, ofKind, List.filterMap_filter]
  congr 1
  funext entry
  by_cases drawing : entry.1 = .gfx
  · simp [drawing, other.symm]
  · simp [drawing]

end CompiledSections
end EffectHost

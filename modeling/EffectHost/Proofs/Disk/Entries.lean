import EffectHost.Proofs.Disk.Paths
import Mathlib.Data.List.Infix
import Mathlib.Data.List.Nodup

/-!
# What a folder lists

Each entry of a file system stands once, and a path can spell each of its names.  So what a folder
lists is found again by the path of the folder and the name.
-/

namespace EffectHost
namespace Disk

/-- A name that an entry can have, so that a path can spell it. -/
structure IsEntryName (name : String) : Prop extends Path.IsPlain name where
  nulless : '\x00' ∉ name.toList
  short : name.utf8ByteSize ≤ longestName

instance (name : String) : Decidable (IsEntryName name) :=
  decidable_of_iff (Path.IsPlain name ∧ '\x00' ∉ name.toList ∧ name.utf8ByteSize ≤ longestName)
    ⟨fun holds => ⟨holds.1, holds.2.1, holds.2.2⟩,
      fun able => ⟨able.toIsPlain, able.nulless, able.short⟩⟩

/-- Every entry stands once, by names that a path can spell. -/
structure IsSpelled (disk : Disk) : Prop where
  once : (disk.entries.map Prod.fst).Nodup
  named : ∀ location ∈ disk.entries.map Prod.fst, ∀ name ∈ location, IsEntryName name

instance (disk : Disk) : Decidable disk.IsSpelled :=
  decidable_of_iff ((disk.entries.map Prod.fst).Nodup ∧
      ∀ location ∈ disk.entries.map Prod.fst, ∀ name ∈ location, IsEntryName name)
    ⟨fun holds => ⟨holds.1, holds.2⟩, fun spelled => ⟨spelled.once, spelled.named⟩⟩

section Entries

variable {disk : Disk} {location : Location} {name path : String} {item : Item}

theorem exists_locate_of_find? (found : disk.find? path = some item) :
    ∃ location, disk.locate path = .ok location ∧ disk.item? location = some item := by
  unfold find? at found
  split at found
  · next location leads => exact ⟨location, leads, found⟩
  · cases found

theorem find?_of_isFile (isFile : disk.isFile path = true) :
    ∃ bytes, disk.find? path = some (.file bytes) := by
  unfold Disk.isFile at isFile
  split at isFile
  · next bytes found => exact ⟨bytes, found⟩
  · cases isFile

theorem find?_of_isFolder (isFolder : disk.isFolder path = true) :
    disk.find? path = some .folder := by
  unfold Disk.isFolder at isFolder
  split at isFolder
  · next found => exact found
  · cases isFolder

theorem mem_children_iff :
    (name, item) ∈ disk.children location ↔ (location ++ [name], item) ∈ disk.entries := by
  unfold children
  rw [List.mem_filterMap]
  constructor
  · rintro ⟨entry, member, listed⟩
    split at listed
    · next last ends =>
        split_ifs at listed with inside
        cases listed
        rcases List.getLast?_eq_some_iff.mp ends with ⟨front, shape⟩
        rw [shape, List.dropLast_concat] at inside
        rw [← beq_iff_eq.mp inside, ← shape]
        exact member
    · cases listed
  · intro member
    refine ⟨(location ++ [name], item), member, ?_⟩
    dsimp only
    rw [List.getLast?_concat, List.dropLast_concat]
    exact if_pos (beq_self_eq_true location)

/-- An entry that stands once is found at its location. -/
theorem IsSpelled.item? (spelled : disk.IsSpelled)
    (listed : (name, item) ∈ disk.children location) :
    disk.item? (location ++ [name]) = some item := by
  rcases List.append_of_mem (mem_children_iff.mp listed) with ⟨before, after, split⟩
  have once := spelled.once
  rw [split, List.map_append, List.map_cons, List.nodup_middle, List.nodup_cons,
    List.mem_append, not_or] at once
  unfold Disk.item?
  rw [if_neg (by simp), List.lookup_eq_some_iff]
  refine ⟨before, after, split, ?_⟩
  intro entry member
  rw [bne_iff_ne]
  intro same
  exact once.1.1 (List.mem_map.mpr ⟨entry, member, same.symm⟩)

theorem IsSpelled.isEntryName (spelled : disk.IsSpelled)
    (listed : (name, item) ∈ disk.children location) : IsEntryName name :=
  spelled.named (location ++ [name]) (List.mem_map.mpr ⟨_, mem_children_iff.mp listed, rfl⟩) name
    (List.mem_append_right location List.mem_cons_self)

/-- What is listed in a folder is found in it by its name. -/
theorem IsSpelled.follow (spelled : disk.IsSpelled) (folder : disk.item? location = some .folder)
    (listed : (name, item) ∈ disk.children location) :
    disk.follow location name = .ok (location ++ [name]) := by
  have able := spelled.isEntryName listed
  have present : (disk.item? (location ++ [name])).isSome = true := by
    rw [spelled.item? listed]
    rfl
  unfold Disk.follow
  rw [folder]
  dsimp only
  rw [if_neg (by simp [able.nonempty, able.notHere]), if_neg (by simp [able.notUp]),
    if_neg (Nat.not_lt.mpr able.short), if_pos present]

end Entries

/-! ## Disks that are built up -/

section Building

variable {disk : Disk} {location : Location}

theorem isSpelled_empty : empty.IsSpelled :=
  ⟨List.nodup_nil, nofun⟩

theorem not_mem_of_item?_eq_none (missing : disk.item? location = none) :
    location ∉ disk.entries.map Prod.fst := by
  unfold Disk.item? at missing
  split at missing
  · cases missing
  · intro member
    rcases List.mem_map.mp member with ⟨entry, present, rfl⟩
    exact bne_iff_ne.mp (List.lookup_eq_none_iff.mp missing entry present) rfl

/-- A new entry with such names can be put behind the others. -/
theorem IsSpelled.append (spelled : disk.IsSpelled) (missing : disk.item? location = none)
    (item : Item) (named : ∀ name ∈ location, IsEntryName name) :
    IsSpelled { disk with entries := disk.entries ++ [(location, item)] } := by
  have new := not_mem_of_item?_eq_none missing
  constructor
  · rw [List.map_append]
    refine List.nodup_append'.mpr ⟨spelled.once, List.nodup_singleton location, ?_⟩
    exact List.disjoint_singleton.mpr new
  · intro other member
    rw [List.map_append, List.mem_append] at member
    rcases member with before | same
    · exact spelled.named other before
    · rw [List.map_singleton, List.mem_singleton] at same
      rw [same]
      exact named

theorem IsSpelled.addFolder (spelled : disk.IsSpelled)
    (named : ∀ name ∈ location, IsEntryName name) : (disk.addFolder location).IsSpelled := by
  unfold Disk.addFolder
  apply List.foldlRecOn _ _ spelled
  intro built spelled depth _
  dsimp only
  split
  · exact spelled
  · next missing =>
      rw [Bool.not_eq_true, Option.isSome_eq_false_iff, Option.isNone_iff_eq_none] at missing
      apply spelled.append missing .folder
      exact fun name member => named name (List.mem_of_mem_take member)

/-- A disk stays so where a file with such names is put. -/
theorem IsSpelled.addFile (spelled : disk.IsSpelled) (bytes : ByteArray)
    (named : ∀ name ∈ location, IsEntryName name) : (disk.addFile location bytes).IsSpelled := by
  have above : ∀ name ∈ location.dropLast, IsEntryName name :=
    fun name member => named name (List.mem_of_mem_dropLast member)
  have built := spelled.addFolder above
  unfold Disk.addFile
  dsimp only
  split
  · next present =>
      have same : ((disk.addFolder location.dropLast).entries.map fun entry =>
          if entry.1 == location then (location, Item.file bytes) else entry).map Prod.fst =
          (disk.addFolder location.dropLast).entries.map Prod.fst := by
        rw [List.map_map]
        apply List.map_congr_left
        intro entry _
        rw [Function.comp_apply]
        split
        · next here => exact (beq_iff_eq.mp here).symm
        · rfl
      constructor
      · rw [same]
        exact built.once
      · rw [same]
        exact built.named
  · next missing =>
      rw [Bool.not_eq_true, Option.isSome_eq_false_iff, Option.isNone_iff_eq_none] at missing
      exact built.append missing (.file bytes) named

end Building
end Disk
end EffectHost

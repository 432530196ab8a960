import EffectHost.Disk.Search
import EffectHost.Proofs.Disk.Entries

/-!
# Finding files without regard to case

A path that leads to no file is followed a second time, name by name, and takes at each name the
first entry that differs from it in case alone.
-/

namespace EffectHost

namespace Disk

section Listing

variable {disk : Disk} {folder wanted name other : String}

/-- The names that a folder lists, in their order. -/
def names (disk : Disk) (folder : String) : List String :=
  ((disk.list? folder).getD []).map Prod.fst

/-- The folder lists an entry whose name differs from the wanted one in case alone. -/
def ListsAlike (disk : Disk) (folder wanted name : String) : Prop :=
  name ∈ disk.names folder ∧ Text.lower name = Text.lower wanted

/-- The entry is the first such entry that the folder lists. -/
def ListsFirst (disk : Disk) (folder wanted name : String) : Prop :=
  ∃ before after, disk.names folder = before ++ name :: after ∧
    Text.lower name = Text.lower wanted ∧ ∀ other ∈ before, Text.lower other ≠ Text.lower wanted

/-- The entry is the only such entry that the folder lists. -/
def ListsOnly (disk : Disk) (folder wanted name : String) : Prop :=
  disk.ListsAlike folder wanted name ∧ ∀ other, disk.ListsAlike folder wanted other → other = name

theorem ListsFirst.alike (first : disk.ListsFirst folder wanted name) :
    disk.ListsAlike folder wanted name := by
  rcases first with ⟨before, after, split, alike, _⟩
  refine ⟨?_, alike⟩
  rw [split]
  exact List.mem_append_right before List.mem_cons_self

theorem entryNamed?_eq_find? :
    disk.entryNamed? folder wanted =
      (disk.names folder).find? fun name => Text.lower name == Text.lower wanted := by
  rw [names, List.find?_map, entryNamed?]
  cases disk.list? folder with
  | none => rfl
  | some entries =>
      change Option.bind (entries.find? _) _ = Option.map _ (entries.find? _)
      rw [Option.map_eq_bind]
      rfl

/-- The entry that is taken is the first one whose name is alike. -/
theorem entryNamed?_eq_some_iff :
    disk.entryNamed? folder wanted = some name ↔ disk.ListsFirst folder wanted name := by
  simp only [entryNamed?_eq_find?, List.find?_eq_some_iff_append, ListsFirst, beq_iff_eq,
    Bool.not_eq_true', beq_eq_false_iff_ne]
  constructor
  · rintro ⟨alike, before, after, split, others⟩
    exact ⟨before, after, split, alike, others⟩
  · rintro ⟨before, after, split, alike, others⟩
    exact ⟨alike, before, after, split, others⟩

theorem ListsOnly.first (only : disk.ListsOnly folder wanted name) :
    disk.ListsFirst folder wanted name := by
  rcases only with ⟨⟨member, alike⟩, sole⟩
  cases taken : disk.entryNamed? folder wanted with
  | some other =>
      have first := entryNamed?_eq_some_iff.mp taken
      exact sole other first.alike ▸ first
  | none =>
      rw [entryNamed?_eq_find?] at taken
      exact absurd (beq_iff_eq.mpr alike) (List.find?_eq_none.mp taken name member)

end Listing

/-- A chain of entries, each of them listed in the one before it. -/
inductive Chain (listed : String → String → String → Prop) :
    String → List String → List String → Prop where
  | nil (folder : String) : Chain listed folder [] []
  | cons {folder wanted name : String} {others names : List String}
      (here : listed folder wanted name)
      (behind : Chain listed (Path.join folder name) others names) :
      Chain listed folder (wanted :: others) (name :: names)

section Chains

variable {disk : Disk} {folder : String} {wanted names : List String}

theorem Chain.mono {listed others : String → String → String → Prop}
    (weaker : ∀ folder wanted name, listed folder wanted name → others folder wanted name)
    (chain : Chain listed folder wanted names) : Chain others folder wanted names := by
  induction chain with
  | nil folder => exact .nil folder
  | cons here _ ih => exact .cons (weaker _ _ _ here) ih

theorem Chain.eq_of_only {others : List String} (only : Chain disk.ListsOnly folder wanted names)
    (chain : Chain disk.ListsAlike folder wanted others) : others = names := by
  induction only generalizing others with
  | nil folder =>
      cases chain
      rfl
  | cons here _ ih =>
      cases chain with
      | cons alike behind =>
          cases here.2 _ alike
          rw [ih behind]

/-- The second walk takes the first alike entry at each name. -/
theorem foldlM_stepAnyCase?_eq_some_iff {found : String} :
    (wanted.map Path.Step.name).foldlM disk.stepAnyCase? folder = some found ↔
      ∃ names, Chain disk.ListsFirst folder wanted names ∧ names.foldl Path.join folder = found := by
  induction wanted generalizing folder with
  | nil =>
      constructor
      · intro same
        cases same
        exact ⟨[], .nil _, rfl⟩
      · rintro ⟨names, chain, rfl⟩
        cases chain
        rfl
  | cons first others ih =>
      rw [List.map_cons, List.foldlM_cons]
      constructor
      · intro walked
        rcases Option.bind_eq_some_iff.mp walked with ⟨next, stepped, walked⟩
        rcases Option.map_eq_some_iff.mp stepped with ⟨name, taken, rfl⟩
        rcases ih.mp walked with ⟨names, chain, ends⟩
        exact ⟨name :: names, .cons (entryNamed?_eq_some_iff.mp taken) chain, ends⟩
      · rintro ⟨_, chain, ends⟩
        cases chain with
        | cons here behind =>
            rw [stepAnyCase?, entryNamed?_eq_some_iff.mpr here]
            exact ih.mpr ⟨_, behind, ends⟩

/-- What stands in a folder is listed in it. -/
theorem mem_children {name : String} {start : Location}
    (present : (disk.item? (start ++ [name])).isSome = true) :
    name ∈ (disk.children start).map Prod.fst := by
  rcases Option.isSome_iff_exists.mp present with ⟨item, here⟩
  have looked : disk.entries.lookup (start ++ [name]) = some item := by
    rw [item?, if_neg (by simp)] at here
    exact here
  rcases List.lookup_eq_some_iff.mp looked with ⟨before, after, split, _⟩
  have member : (start ++ [name], item) ∈ disk.entries := by
    rw [split]
    exact List.mem_append_right before List.mem_cons_self
  exact List.mem_map.mpr ⟨(name, item), mem_children_iff.mpr member, rfl⟩

/-- A name leads from a folder to an item in it. -/
theorem follow_eq_ok {name : String} {start location : Location} (plain : Path.IsPlain name)
    (leads : disk.follow start name = .ok location) :
    disk.item? start = some .folder ∧ location = start ++ [name] ∧
      (disk.item? (start ++ [name])).isSome = true := by
  unfold follow at leads
  split at leads
  · next isFolder =>
      simp only [beq_iff_eq, plain.nonempty, plain.notHere, plain.notUp, Bool.or_eq_true, or_self,
        if_false] at leads
      split_ifs at leads with long present
      cases leads
      exact ⟨isFolder, rfl, present⟩
  · cases leads
  · cases leads

/-- A folder lists the name that a path leads through. -/
theorem listsAlike_of_locate {name : String} {location : Location} (named : folder ≠ "")
    (plain : Path.IsPlain name) (leads : disk.locate (Path.join folder name) = .ok location) :
    (∃ start, disk.locate folder = .ok start) ∧ disk.ListsAlike folder name name := by
  have accepted : refusal? (Path.join folder name) = none := by
    unfold locate at leads
    split at leads
    · cases leads
    · next accepted => exact accepted
  rw [locate_join named plain accepted] at leads
  cases entered : disk.locate folder with
  | error fault =>
      rw [entered] at leads
      cases leads
  | ok start =>
      rw [entered] at leads
      rcases follow_eq_ok plain leads with ⟨isFolder, _, present⟩
      have listed : disk.list? folder = some (disk.children start) := by
        unfold list?
        rw [entered]
        dsimp only
        rw [isFolder]
      refine ⟨⟨start, rfl⟩, ?_, rfl⟩
      rw [names, listed]
      exact mem_children present

/-- A path that leads somewhere is a chain itself. -/
theorem chain_of_locate {location : Location} (named : folder ≠ "")
    (plain : ∀ name ∈ names, Path.IsPlain name)
    (leads : disk.locate (names.foldl Path.join folder) = .ok location) :
    (∃ start, disk.locate folder = .ok start) ∧ Chain disk.ListsAlike folder names names := by
  induction names generalizing folder with
  | nil => exact ⟨⟨location, leads⟩, .nil folder⟩
  | cons first others ih =>
      have here := plain first List.mem_cons_self
      rcases ih (Path.join_ne_empty named here)
        (fun name member => plain name (List.mem_cons_of_mem first member)) leads with
        ⟨⟨next, entered⟩, chain⟩
      rcases listsAlike_of_locate named here entered with ⟨start, alike⟩
      exact ⟨start, .cons alike chain⟩

end Chains

section Resolution

variable {disk : Disk} {dir relative found : String} {components : List String}

theorem resolveIn?_of_direct (direct : disk.isFile (Path.join dir relative) = true) :
    disk.resolveIn? dir relative = some (Path.join dir relative) := by
  unfold resolveIn?
  rw [if_pos direct]

/-- Where the path as it stands leads to no file, the chain of first entries is taken. -/
theorem resolveIn?_eq_some_iff (nonempty : components ≠ [])
    (plain : ∀ component ∈ components, Path.IsPlain component)
    (indirect : disk.isFile (Path.join dir (Path.through components)) = false) :
    disk.resolveIn? dir (Path.through components) = some found ↔
      disk.isFile found = true ∧
        ∃ names, Chain disk.ListsFirst dir components names ∧ names.foldl Path.join dir = found := by
  rw [← foldlM_stepAnyCase?_eq_some_iff]
  unfold resolveIn?
  dsimp only
  rw [Path.steps_through nonempty plain, indirect, if_neg Bool.false_ne_true]
  cases (components.map Path.Step.name).foldlM disk.stepAnyCase? dir with
  | none => simp
  | some last =>
      dsimp only
      by_cases isFile : disk.isFile last = true
      · rw [if_pos isFile]
        constructor
        · rintro ⟨⟩
          exact ⟨isFile, rfl⟩
        · exact And.right
      · rw [if_neg isFile]
        constructor
        · rintro ⟨⟩
        · rintro ⟨isFile, ⟨⟩⟩
          contradiction

/-- The folder without a name lists nothing, so only the path as it stands counts there. -/
theorem resolveIn?_nameless (nonempty : components ≠ [])
    (plain : ∀ component ∈ components, Path.IsPlain component) :
    let relative := Path.through components
    disk.resolveIn? "" relative = if disk.isFile relative then some relative else none := by
  intro relative
  have direct : Path.join "" relative = relative := by
    unfold Path.join
    rw [if_pos (by simp)]
  have stuck : (components.map Path.Step.name).foldlM disk.stepAnyCase? "" = none := by
    rcases List.exists_cons_of_ne_nil nonempty with ⟨first, others, rfl⟩
    rfl
  unfold resolveIn?
  rw [direct, Path.steps_through nonempty plain, stuck]

end Resolution

/-- Looking for a file without regard to case takes the path as it stands if it leads to a file, or
else the chain of the entries that are listed first.  What is found is a chain of alike names that
ends in a file.  No chain is missed where each folder lists one alike entry only; but one that goes
on behind another entry than the first is, and so is every one that starts at the folder without a
name. -/
theorem resolveIn?_follows_first (disk : Disk) (dir : String) (components : List String)
    (named : dir ≠ "") (nonempty : components ≠ [])
    (plain : ∀ component ∈ components, Path.IsPlain component) :
    let relative := Path.through components
    let direct := Path.join dir relative
    (disk.isFile direct = true → disk.resolveIn? dir relative = some direct) ∧
    (∀ found, disk.resolveIn? dir relative = some found →
      ∃ names, Chain disk.ListsAlike dir components names ∧
        found = names.foldl Path.join dir ∧ disk.isFile found = true) ∧
    (disk.resolveIn? dir relative = none ↔ disk.isFile direct = false ∧
      ∀ names, Chain disk.ListsFirst dir components names →
        disk.isFile (names.foldl Path.join dir) = false) ∧
    (∀ names, Chain disk.ListsOnly dir components names →
      disk.isFile (names.foldl Path.join dir) = true →
        disk.resolveIn? dir relative = some (names.foldl Path.join dir)) ∧
    disk.resolveIn? "" relative = (if disk.isFile relative then some relative else none) := by
  intro relative direct
  have direct_eq : direct = components.foldl Path.join dir :=
    Path.join_through named nonempty plain
  have direct_chain (isFile : disk.isFile direct = true) :
      Chain disk.ListsAlike dir components components := by
    rcases find?_of_isFile isFile with ⟨bytes, found⟩
    rcases exists_locate_of_find? found with ⟨location, leads, _⟩
    exact (chain_of_locate named plain (direct_eq ▸ leads)).2
  have nameless : disk.resolveIn? "" relative =
      if disk.isFile relative then some relative else none :=
    resolveIn?_nameless nonempty plain
  by_cases isDirect : disk.isFile direct = true
  · have found : disk.resolveIn? dir relative = some direct := resolveIn?_of_direct isDirect
    rw [found, isDirect]
    refine ⟨fun _ => rfl, ?_, by simp, ?_, nameless⟩
    · rintro _ ⟨⟩
      exact ⟨components, direct_chain isDirect, direct_eq, isDirect⟩
    · intro names only _
      rw [← only.eq_of_only (direct_chain isDirect), direct_eq]
  · rw [Bool.not_eq_true] at isDirect
    have found (path : String) : disk.resolveIn? dir relative = some path ↔
        disk.isFile path = true ∧
          ∃ names, Chain disk.ListsFirst dir components names ∧ names.foldl Path.join dir = path :=
      resolveIn?_eq_some_iff nonempty plain isDirect
    rw [isDirect]
    refine ⟨nofun, ?_, ?_, ?_, nameless⟩
    · intro path here
      rcases (found path).mp here with ⟨isFile, names, chain, rfl⟩
      exact ⟨names, chain.mono fun _ _ _ first => first.alike, rfl, isFile⟩
    · rw [Option.eq_none_iff_forall_ne_some]
      constructor
      · intro missed
        refine ⟨rfl, ?_⟩
        intro names chain
        rw [← Bool.not_eq_true]
        intro isFile
        exact missed _ ((found _).mpr ⟨isFile, names, chain, rfl⟩)
      · rintro ⟨_, missed⟩ path here
        rcases (found path).mp here with ⟨isFile, names, chain, rfl⟩
        rw [missed names chain] at isFile
        cases isFile
    · intro names only isFile
      exact (found _).mpr ⟨isFile, names, only.mono fun _ _ _ here => here.first, rfl⟩

/-- Two folders whose names differ in case alone, each with a file. -/
def twoLibraries : Disk :=
  (Disk.empty.addFile ["Lib", "a.txt"] ByteArray.empty).addFile ["LIB", "b.txt"] ByteArray.empty

/-- The file in the second folder, by its exact path. -/
theorem resolveIn?_follows_first_direct :
    (∀ component ∈ ["LIB", "b.txt"], Path.IsPlain component) ∧
    twoLibraries.resolveIn? "/" (Path.through ["LIB", "b.txt"]) =
      some (Path.join "/" (Path.through ["LIB", "b.txt"])) :=
  ⟨by decide, (resolveIn?_follows_first twoLibraries "/" ["LIB", "b.txt"] (by decide) (by decide)
    (by decide)).1 (by decide +kernel)⟩

/-- By a path that differs in case, that file is missed: the walk goes into the first folder. -/
theorem resolveIn?_misses_later_entry :
    (∃ names, Chain twoLibraries.ListsAlike "/" ["lib", "b.txt"] names ∧
      twoLibraries.isFile (names.foldl Path.join "/") = true) ∧
    twoLibraries.resolveIn? "/" (Path.through ["lib", "b.txt"]) = none := by
  have folder : twoLibraries.ListsAlike "/" "lib" "LIB" := by
    unfold ListsAlike
    decide +kernel
  have file : twoLibraries.ListsAlike (Path.join "/" "LIB") "b.txt" "b.txt" := by
    unfold ListsAlike
    decide +kernel
  refine ⟨⟨["LIB", "b.txt"], .cons folder (.cons file (.nil _)), ?_⟩, ?_⟩
  · decide +kernel
  · decide +kernel

end Disk
end EffectHost

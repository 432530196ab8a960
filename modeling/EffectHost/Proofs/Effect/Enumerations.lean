import EffectHost.Proofs.Effect.Grounded
import EffectHost.Proofs.Number.Comparable

/-!
# The ranges of enumerations

The range of a slider passes through three hands.  Its line gives it one, the folder of a path
slider may give it the last of the files that were found, and in the end every enumeration gets
the range of its names.  What comes out is the same whatever the first two have done, and doing
the last again changes nothing.
-/

namespace EffectHost

/-! ## What is read -/

namespace Slider

theorem isEnumeration_withDescription (slider : Slider) (text : List Char) :
    (slider.withDescription text).isEnumeration = slider.isEnumeration := by
  rw [withDescription]
  split <;> rfl

theorem path_withDescription (slider : Slider) (text : List Char) :
    (slider.withDescription text).path = slider.path := by
  rw [withDescription]
  split <;> rfl

theorem path_withRange (slider : Slider) (text : List Char) :
    (slider.withRange text).path = slider.path := by
  rw [withRange]
  split <;> rfl

theorem path_withDefault (slider : Slider) (text : List Char) :
    (slider.withDefault text).path = slider.path := by
  rw [withDefault]
  split
  · rw [path_withDescription, path_withRange]
  · rw [path_withDescription]

theorem not_isPath_absent (slot : Nat) : ¬ (absent slot).isPath = true :=
  Bool.false_ne_true

/-- Only the path form gives a slider a path, and it makes it an enumeration. -/
theorem isEnumeration_parse_of_isPath (slot : Nat) (text : List Char) :
    (parse slot text).isPath = true → (parse slot text).isEnumeration = true := by
  rw [parse]
  dsimp only
  cases splitName? (Text.trimStart text) <;> dsimp only
  all_goals
    split
    · exact fun _ => isEnumeration_withDescription _ _
    · intro named
      rw [isPath, path_withDefault] at named
      cases named

/-! ## What is found -/

/-- The value of a declared slider chooses among names. -/
structure Chooses (slider : Slider) : Prop where
  declared : slider.declared = true
  isEnumeration : slider.isEnumeration = true

theorem Chooses.of_eq {one two : Slider} (chooses : one.Chooses)
    (declared : one.declared = two.declared)
    (isEnumeration : one.isEnumeration = two.isEnumeration) : two.Chooses :=
  ⟨declared.symm.trans chooses.declared, isEnumeration.symm.trans chooses.isEnumeration⟩

/-- The range leads from the first of the names to the last. -/
structure FitsChoices (slider : Slider) : Prop where
  min : (slider.min == 0.0) = true
  max : (slider.max == Float.ofNat (Nat.max slider.choices.length 1 - 1)) = true
  inc : (slider.inc == 1.0) = true

/-- The folder of a declared path slider: the first of some folders in which it exists. -/
def folder? (disk : Disk) (folders : List String) (slider : Slider) : Option String :=
  if slider.declared && slider.isPath then
    (folders.map (Path.join · slider.path)).find? disk.isFolder
  else none

/-- An enumeration that offers no choice. -/
def isNameless (slider : Slider) : Bool :=
  slider.declared && slider.isEnumeration && slider.choices.isEmpty

end Slider

/-- An entry of a folder that is a file with data, which is text, raw words or in some format. -/
def DataFile.isListed (disk : Disk) (formats : List AudioFormat) (folder : String)
    (entry : String × Item) : Bool :=
  match entry.2 with
  | .file _ => isKnown disk formats (Path.join folder entry.1)
  | .folder => false

/-- The names are those of the data files directly inside a folder, in alphabetical order. -/
structure DataFile.Lists (disk : Disk) (formats : List AudioFormat) (folder : String)
    (names : List String) : Prop where
  ordered : names.Pairwise (· ≤ ·)
  exact : ∃ entries, disk.list? folder = some entries ∧
    names.Perm ((entries.filter (isListed disk formats folder)).map Prod.fst)

namespace Disk

/-- A folder can be listed. -/
theorem exists_list?_of_isFolder {disk : Disk} {path : String}
    (folder : disk.isFolder path = true) : ∃ entries, disk.list? path = some entries := by
  rw [isFolder, find?] at folder
  rw [list?]
  cases found : disk.locate path with
  | error fault =>
      rw [found] at folder
      cases folder
  | ok location =>
      rw [found] at folder
      dsimp only at folder ⊢
      split at folder
      · exact ⟨_, rfl⟩
      · cases folder

end Disk

namespace LoadedScript

theorem ordered_sortNames (names : List String) : (sortNames names).Pairwise (· ≤ ·) := by
  have order (first second : String) :
      (!decide (second < first)) = true ↔ first ≤ second := by
    rw [Bool.not_eq_true', decide_eq_false_iff_not, String.not_lt]
  have sorted : (sortNames names).Pairwise fun first second => !decide (second < first) := by
    apply List.pairwise_mergeSort
    · intro first second third
      rw [order, order, order]
      exact String.le_trans
    · intro first second
      rw [Bool.or_eq_true, order, order]
      exact String.le_total first second
  exact sorted.imp (order _ _).mp

theorem lists_dataFilesIn {disk : Disk} (formats : List AudioFormat) {folder : String}
    (found : disk.isFolder folder = true) :
    DataFile.Lists disk formats folder (dataFilesIn disk formats folder) := by
  rcases Disk.exists_list?_of_isFolder found with ⟨entries, listed⟩
  refine ⟨ordered_sortNames _, entries, listed, ?_⟩
  rw [dataFilesIn, listed, Option.getD_some]
  refine (List.mergeSort_perm _ _).trans (.of_eq ?_)
  clear listed
  induction entries with
  | nil => rfl
  | cons entry others ih =>
      rcases entry with ⟨name, bytes | _⟩
      · cases known : DataFile.isListed disk formats folder (name, .file bytes) with
        | true =>
            rw [List.filter_cons_of_pos known, List.map_cons, ← ih]
            exact List.filterMap_cons_some (if_pos known)
        | false =>
            have unknown := Bool.eq_false_iff.mp known
            rw [List.filter_cons_of_neg unknown, ← ih]
            exact List.filterMap_cons_none (if_neg unknown)
      · exact ih

/-- Only the names and the maximum of a slider are taken from a folder. -/
theorem withListedChoices_kept (disk : Disk) (formats : List AudioFormat)
    (folders : List String) (slider : Slider) :
    let listed := withListedChoices disk formats folders slider
    listed = { slider with choices := listed.choices, max := listed.max } := by
  dsimp only
  rw [withListedChoices]
  split
  · split <;> rfl
  · rfl

/-- A path slider whose folder is found gets the names of the data files in it. -/
theorem lists_withListedChoices {disk : Disk} (formats : List AudioFormat)
    {folders : List String} {slider : Slider} {folder : String}
    (found : slider.folder? disk folders = some folder) :
    DataFile.Lists disk formats folder
      (withListedChoices disk formats folders slider).choices := by
  rw [Slider.folder?] at found
  rw [withListedChoices]
  split at found
  · next path =>
      rw [if_pos path, found]
      exact lists_dataFilesIn formats (List.find?_some found)
  · cases found

/-- Any other slider is left alone. -/
theorem withListedChoices_of_none {disk : Disk} (formats : List AudioFormat)
    {folders : List String} {slider : Slider} (missing : slider.folder? disk folders = none) :
    withListedChoices disk formats folders slider = slider := by
  rw [Slider.folder?] at missing
  rw [withListedChoices]
  split at missing
  · next path => rw [if_pos path, missing]
  · next other => rw [if_neg other]

end LoadedScript

/-! ## What is made of the range -/

namespace Slider

/-- The slider with the range of its names. -/
def ranged (slider : Slider) : Slider :=
  { slider with min := 0.0, max := lastChoice slider.choices.length, inc := 1.0 }

theorem Chooses.ranged {slider : Slider} (chooses : slider.Chooses) : slider.ranged.Chooses :=
  ⟨chooses.declared, chooses.isEnumeration⟩

theorem fitsChoices_ranged (slider : Slider) : slider.ranged.FitsChoices where
  min := by
    change ((0.0 : Float) == 0.0) = true
    decide +kernel
  max := Number.beq_self_ofNat _
  inc := by
    change ((1.0 : Float) == 1.0) = true
    decide +kernel

theorem isNameless_iff {slider : Slider} :
    slider.isNameless = true ↔ slider.Chooses ∧ slider.choices = [] := by
  rw [isNameless, Bool.and_eq_true, Bool.and_eq_true, List.isEmpty_iff]
  constructor
  · rintro ⟨⟨declared, value⟩, none⟩
    exact ⟨⟨declared, value⟩, none⟩
  · rintro ⟨⟨declared, value⟩, none⟩
    exact ⟨⟨declared, value⟩, none⟩

theorem hasChoiceRange_iff {slider : Slider} :
    slider.hasChoiceRange = true ↔ slider.choices ≠ [] ∧ slider.FitsChoices := by
  rw [hasChoiceRange, Bool.and_eq_true, Bool.and_eq_true, Bool.and_eq_true, Bool.not_eq_true',
    List.isEmpty_eq_false_iff]
  constructor
  · rintro ⟨⟨⟨some, min⟩, max⟩, inc⟩
    exact ⟨some, min, max, inc⟩
  · rintro ⟨some, min, max, inc⟩
    exact ⟨⟨⟨some, min⟩, max⟩, inc⟩

/-- A slider that does not choose is left alone. -/
theorem withChoiceRange_of_not_chooses {slider : Slider} (other : ¬ slider.Chooses) :
    slider.withChoiceRange = (slider, none) := by
  rw [withChoiceRange, if_pos]
  by_cases declared : slider.declared = true
  · have value : slider.isEnumeration ≠ true := fun own => other ⟨declared, own⟩
    simp [value]
  · simp [declared]

/-- An enumeration is left alone if it has names and its range fits them.  Otherwise it gets
the range of its names, with a warning. -/
theorem withChoiceRange_of_chooses {slider : Slider} (chooses : slider.Chooses) :
    slider.withChoiceRange =
      if slider.hasChoiceRange then (slider, none)
      else (slider.ranged, some slider.choiceFault) := by
  have only : (!slider.declared || !slider.isEnumeration || slider.hasChoiceRange) =
      slider.hasChoiceRange := by
    rw [chooses.declared, chooses.isEnumeration]
    rfl
  rw [withChoiceRange, only]
  rfl

/-- Only the range of a slider changes, and that of an enumeration fits in the end. -/
theorem withChoiceRange_fst {slider done : Slider} (ranged : slider.withChoiceRange.1 = done) :
    done = { slider with min := done.min, max := done.max, inc := done.inc } ∧
      (slider.Chooses → done.FitsChoices) := by
  by_cases chooses : slider.Chooses
  · rw [withChoiceRange_of_chooses chooses] at ranged
    by_cases fits : slider.hasChoiceRange = true
    · rw [if_pos fits] at ranged
      subst ranged
      exact ⟨rfl, fun _ => (hasChoiceRange_iff.mp fits).2⟩
    · rw [if_neg fits] at ranged
      subst ranged
      exact ⟨rfl, fun _ => slider.fitsChoices_ranged⟩
  · rw [withChoiceRange_of_not_chooses chooses] at ranged
    subst ranged
    exact ⟨rfl, fun own => absurd own chooses⟩

/-- There is a warning of an enumeration without names or with another range than theirs. -/
theorem withChoiceRange_snd (slider : Slider) (text : String) :
    slider.withChoiceRange.2 = some text ↔
      slider.Chooses ∧ (slider.choices = [] ∨ ¬ slider.FitsChoices) ∧
        text = slider.choiceFault := by
  by_cases chooses : slider.Chooses
  · rw [withChoiceRange_of_chooses chooses]
    by_cases fits : slider.hasChoiceRange = true
    · have both := hasChoiceRange_iff.mp fits
      rw [if_pos fits]
      constructor
      · nofun
      · rintro ⟨_, none | differs, _⟩
        · exact absurd none both.1
        · exact absurd both.2 differs
    · have either : slider.choices = [] ∨ ¬ slider.FitsChoices := by
        rw [hasChoiceRange_iff, not_and_or, not_not] at fits
        exact fits
      rw [if_neg fits, Option.some.injEq, eq_comm]
      exact ⟨fun same => ⟨chooses, either, same⟩, fun all => all.2.2⟩
  · rw [withChoiceRange_of_not_chooses chooses]
    exact ⟨nofun, fun all => absurd all.1 chooses⟩

/-- Once a slider has its range, giving it another time changes nothing, and there is a warning
only where there are no names. -/
theorem withChoiceRange_again {slider once : Slider} (ranged : slider.withChoiceRange.1 = once) :
    once.withChoiceRange = (once, if once.isNameless then some once.choiceFault else none) := by
  by_cases chooses : slider.Chooses
  · rw [withChoiceRange_of_chooses chooses] at ranged
    by_cases fits : slider.hasChoiceRange = true
    · rw [if_pos fits] at ranged
      subst ranged
      rw [withChoiceRange_of_chooses chooses, if_pos fits, if_neg]
      exact fun nameless => (hasChoiceRange_iff.mp fits).1 (isNameless_iff.mp nameless).2
    · rw [if_neg fits] at ranged
      subst ranged
      rw [withChoiceRange_of_chooses chooses.ranged]
      by_cases nameless : slider.choices = []
      · rw [if_neg, if_pos (isNameless_iff.mpr ⟨chooses.ranged, nameless⟩)]
        · rfl
        · exact fun has => (hasChoiceRange_iff.mp has).1 nameless
      · have fits : slider.ranged.hasChoiceRange = true :=
          hasChoiceRange_iff.mpr ⟨nameless, slider.fitsChoices_ranged⟩
        rw [if_pos fits, if_neg]
        exact fun has => nameless (isNameless_iff.mp has).2
  · rw [withChoiceRange_of_not_chooses chooses] at ranged
    subst ranged
    rw [withChoiceRange_of_not_chooses chooses, if_neg]
    exact fun nameless => chooses (isNameless_iff.mp nameless).1

/-- What loading makes of a slider that was read, and the warning that it gives. -/
structure Completion (disk : Disk) (formats : List AudioFormat) (folders : List String)
    (read loaded : Slider) (warning? : Option String) : Prop where
  /-- A slider that is no enumeration is left as it was read. -/
  other : ¬ read.Chooses → loaded = read
  kept : loaded = { read with
    choices := loaded.choices, min := loaded.min, max := loaded.max, inc := loaded.inc }
  range : loaded.Chooses → loaded.FitsChoices
  listed : ∀ folder, read.folder? disk folders = some folder →
    DataFile.Lists disk formats folder loaded.choices
  unlisted : read.folder? disk folders = none → loaded.choices = read.choices
  /-- The fault is that of the slider as its folder has left it. -/
  warns : ∀ text, warning? = some text ↔
    loaded.Chooses ∧
      (loaded.choices = [] ∨
        ¬ (LoadedScript.withListedChoices disk formats folders read).FitsChoices) ∧
      text = (LoadedScript.withListedChoices disk formats folders read).choiceFault

theorem Completion.chooses {disk : Disk} {formats : List AudioFormat} {folders : List String}
    {read loaded : Slider} {warning? : Option String}
    (completion : Completion disk formats folders read loaded warning?)
    (chooses : read.Chooses) : loaded.Chooses := by
  rw [completion.kept]
  exact ⟨chooses.declared, chooses.isEnumeration⟩

/-- Listing the folder of a path slider and giving it the range of its names complete it. -/
theorem completion_of_path {read listed loaded : Slider} {disk : Disk}
    {formats : List AudioFormat} {folders : List String}
    (path : read.isPath = true → read.isEnumeration = true)
    (lists : LoadedScript.withListedChoices disk formats folders read = listed)
    (ranges : listed.withChoiceRange.1 = loaded) :
    Completion disk formats folders read loaded listed.withChoiceRange.2 := by
  have first := LoadedScript.withListedChoices_kept disk formats folders read
  rcases withChoiceRange_fst ranges with ⟨second, fits⟩
  dsimp only at first
  rw [lists] at first
  have declared : loaded.declared = listed.declared := by rw [second]
  have declared' : listed.declared = read.declared := by rw [first]
  have enumeration : loaded.isEnumeration = listed.isEnumeration := by rw [second]
  have enumeration' : listed.isEnumeration = read.isEnumeration := by rw [first]
  have choices : loaded.choices = listed.choices := by rw [second]
  constructor
  · intro other
    have missing : read.folder? disk folders = none := by
      rw [folder?, if_neg]
      intro both
      rw [Bool.and_eq_true] at both
      exact other ⟨both.1, path both.2⟩
    rw [LoadedScript.withListedChoices_of_none formats missing] at lists
    rw [← ranges, ← lists, withChoiceRange_of_not_chooses other]
  · rw [second, first]
  · exact fun chooses => fits (chooses.of_eq declared enumeration)
  · intro folder found
    rw [choices, ← lists]
    exact LoadedScript.lists_withListedChoices formats found
  · intro missing
    rw [choices, ← lists, LoadedScript.withListedChoices_of_none formats missing]
  · intro text
    rw [lists, withChoiceRange_snd, choices]
    constructor
    · exact fun all => ⟨all.1.of_eq declared.symm enumeration.symm, all.2⟩
    · exact fun all => ⟨all.1.of_eq declared enumeration, all.2⟩

end Slider

/-! ## Whole headers -/

namespace Header

/-- The sliders of a header in the order of their slots. -/
theorem toList_sliders (header : Header) :
    header.sliders.toList = (List.finRange sliderSlots).map header.sliders.get := by
  apply List.ext_getElem
  · simp
  · intro position _ _
    simp [Vector.get_eq_getElem]

/-- Giving the sliders of a header their ranges another time changes none of them, and warns of
those enumerations that have no names. -/
theorem withChoiceRanges_again (header : Header) :
    let once := header.withChoiceRanges.1
    once.withChoiceRanges =
      (once, (once.sliders.toList.filter Slider.isNameless).map Slider.choiceFault) := by
  intro once
  have again : ∀ slider ∈ once.sliders.toList, slider.withChoiceRange =
      (slider, if slider.isNameless then some slider.choiceFault else none) := by
    intro slider member
    have listed : slider ∈ header.sliders.map fun slider => slider.withChoiceRange.1 :=
      Vector.mem_toList_iff.mp member
    rcases Vector.mem_map.mp listed with ⟨own, _, ranged⟩
    exact Slider.withChoiceRange_again ranged
  have kept : once.sliders.map (fun slider => slider.withChoiceRange.1) = once.sliders := by
    have same : ∀ slider ∈ once.sliders, slider.withChoiceRange.1 = id slider := by
      intro slider member
      rw [again slider (Vector.mem_toList_iff.mpr member)]
      rfl
    rw [Vector.map_congr_left same, Vector.map_id]
  have warned : once.sliders.toList.filterMap (fun slider => slider.withChoiceRange.2) =
      (once.sliders.toList.filter Slider.isNameless).map Slider.choiceFault := by
    rw [← List.filterMap_eq_map, List.filterMap_filter]
    apply List.filterMap_congr
    intro slider member
    rw [again slider member]
    rfl
  rw [withChoiceRanges, kept, warned]

end Header

namespace LoadedScript

variable {disk : Disk} {config : Config} {unit : ScriptUnit}

/-- What the sliders of a script become, and what is reported of them. -/
theorem completion_complete {slot : Fin sliderSlots}
    (path : (unit.header.sliders.get slot).isPath = true →
      (unit.header.sliders.get slot).isEnumeration = true) :
    let folders := unit.folder?.toList ++ config.dataRoot?.toList
    let listed := withListedChoices disk config.formats folders (unit.header.sliders.get slot)
    Slider.Completion disk config.formats folders (unit.header.sliders.get slot)
      ((complete disk config unit).1.header.sliders.get slot) listed.withChoiceRange.2 := by
  intro folders listed
  apply Slider.completion_of_path path rfl
  rw [complete, Header.withChoiceRanges]
  simp [Vector.get_eq_getElem, folders]

theorem reports_complete (disk : Disk) (config : Config) (unit : ScriptUnit) :
    let folders := unit.folder?.toList ++ config.dataRoot?.toList
    (complete disk config unit).2 = ((List.finRange sliderSlots).filterMap fun slot =>
      (withListedChoices disk config.formats folders
        (unit.header.sliders.get slot)).withChoiceRange.2).map
        (⟨.warning, ·⟩) := by
  intro folders
  rw [complete, Header.withChoiceRanges, Header.toList_sliders]
  dsimp only
  rw [List.filterMap_map]
  congr 2
  funext slot
  simp [Vector.get_eq_getElem, folders]

/-- Loading reads a unit at the path and completes its header, of which only the sliders
matter here. -/
theorem load_eq_ok {path : String} {ignoreImports : Bool} {script : LoadedScript}
    {reports : List Report}
    (loaded : load disk config path ignoreImports = (.ok script, reports)) :
    ∃ unit main : ScriptUnit, ScriptUnit.load disk path = .ok unit ∧
      main.header.sliders = unit.header.sliders ∧ main.folder? = Path.parent? path ∧
      script.main = (complete disk config main).1 ∧
      reports = (describe unit path).2 ++ (complete disk config main).2 := by
  rw [load] at loaded
  split at loaded
  · cases loaded
  · next unit read =>
      have placed : unit.folder? = Path.parent? path := by
        rw [ScriptUnit.load] at read
        split at read
        · cases read
        · next bytes _ =>
            cases made : ScriptUnit.parse (Utf8.decode bytes) with
            | error failure =>
                rw [made] at read
                cases read
            | ok own =>
                rw [made] at read
                cases read
                rfl
      have described : (describe unit path).1.header.sliders = unit.header.sliders ∧
          (describe unit path).1.folder? = unit.folder? := by
        rw [describe]
        split <;> exact ⟨rfl, rfl⟩
      dsimp only at loaded
      split at loaded
      · cases loaded
      · cases loaded
        refine ⟨unit, _, read, ?_, ?_, rfl, rfl⟩
        · split <;> exact described.1
        · rw [← placed, ← described.2]
          split <;> rfl

end LoadedScript

namespace Effect

variable {σ : Type}

/-- Whatever the header of a script and the files say, loading leaves every enumeration with the
range of its names.  The names of a path slider are those of the data files of its folder, which
is looked for beside the script and then in the folder for data; no other slider gets other
names, and none but enumerations change at all.  There is one warning for each enumeration
without names and for each whose range was another one.  Giving the sliders their ranges another
time changes nothing, and only enumerations without names are warned of again. -/
theorem load_fits_enumerations (effect : Effect σ) (path : String) (ignoreImports : Bool) :
    let attempt := effect.load path ignoreImports
    let disk := effect.rig.disk
    let formats := effect.rig.config.formats
    let folders := (Path.parent? path).toList ++ effect.rig.config.dataRoot?.toList
    let header := attempt.effect.header
    attempt.result = .ok () →
      ∃ (unit : ScriptUnit) (warning? : Fin sliderSlots → Option String),
        ScriptUnit.load disk path = .ok unit ∧
        (∀ slot, Slider.Completion disk formats folders (unit.header.sliders.get slot)
          (header.sliders.get slot) (warning? slot)) ∧
        attempt.reports = (LoadedScript.describe unit path).2 ++
          ((List.finRange sliderSlots).filterMap warning?).map (⟨.warning, ·⟩) ∧
        header.withChoiceRanges =
          (header, (header.sliders.toList.filter Slider.isNameless).map Slider.choiceFault) := by
  intro attempt disk formats folders header succeeded
  have result : (effect.load path ignoreImports).result = .ok () := succeeded
  have same : attempt = effect.load path ignoreImports := rfl
  rw [load] at result same
  split at result
  · next script reports loaded =>
      rw [loaded] at same
      rcases LoadedScript.load_eq_ok loaded with ⟨unit, main, read, sliders, placed, own, told⟩
      have completed : header = (LoadedScript.complete disk effect.rig.config main).1.header := by
        change attempt.effect.header = _
        rw [same]
        exact congrArg ScriptUnit.header own
      have found : main.folder?.toList ++ effect.rig.config.dataRoot?.toList = folders := by
        rw [placed]
      refine ⟨unit, fun slot => (LoadedScript.withListedChoices disk formats folders
        (unit.header.sliders.get slot)).withChoiceRange.2, read, ?_, ?_, ?_⟩
      · intro slot
        have path := ScriptUnit.forall_load
          (fun _ slider => slider.isPath = true → slider.isEnumeration = true)
          (fun slot path => absurd path (Slider.not_isPath_absent slot))
          (fun slot => Slider.isEnumeration_parse_of_isPath slot) read slot
        rw [← sliders] at path ⊢
        rw [completed, ← found]
        exact LoadedScript.completion_complete path
      · rw [same, ← sliders, ← found]
        exact told.trans (congrArg _ (LoadedScript.reports_complete _ _ _))
      · rw [completed]
        exact Header.withChoiceRanges_again _
  · cases result

/-- The first slider has two names and another range than theirs, and the second one finds its
folder beside the script, with a file in a format of the host. -/
theorem load_fits_enumerations_two :
    let text := "desc:A\nslider1:0<3,9,2{Low,High}>Mode\nslider2:/data:0:File\n"
    let disk := (((Disk.empty.addFile ["a.jsfx"] text.toUTF8).addFile ["data", "b.txt"]
      .empty).addFile ["data", "a.WAV"] .empty).addFile ["data", "c.aif"] .empty
    let format : AudioFormat :=
      { claims := fun _ path => DataFile.extension? path == some "aif"
        read := fun _ path => .error (.unusable path "no samples") }
    let config := ({} : Config).withFormat format
    let attempt := (Effect.new disk config : Effect Unit).load "/a.jsfx" false
    let header := attempt.effect.header
    attempt.result = .ok () ∧ (header.sliders.get 0).FitsChoices ∧
      (header.sliders.get 1).FitsChoices ∧
      ((header.sliders.get 0).max == 1.0) = true ∧
      DataFile.Lists disk config.formats "/data" (header.sliders.get 1).choices ∧
      (header.sliders.get 1).choices.Perm ["b.txt", "a.WAV", "c.aif"] ∧
      header.withChoiceRanges.1 = header := by
  intro text disk format config attempt header
  have succeeded : attempt.result = .ok () := result_of_isOk (by decide +kernel)
  rcases load_fits_enumerations (Effect.new disk config : Effect Unit) "/a.jsfx" false
    succeeded with ⟨unit, warning?, read, completed, _, again⟩
  let folders := (Path.parent? "/a.jsfx").toList ++ config.dataRoot?.toList
  have declared : (ScriptUnit.load disk "/a.jsfx").toOption.map (fun unit =>
      ((unit.header.sliders.get 0).declared, (unit.header.sliders.get 0).isEnumeration,
        (unit.header.sliders.get 1).declared, (unit.header.sliders.get 1).isEnumeration,
        (unit.header.sliders.get 1).folder? disk folders)) =
      some (true, true, true, true, some "/data") := by
    decide +kernel
  have loaded : ScriptUnit.load disk "/a.jsfx" = .ok unit := read
  rw [loaded] at declared
  simp only [Except.toOption, Option.map_some, Option.some.injEq, Prod.mk.injEq] at declared
  rcases declared with ⟨first, firstNames, second, secondNames, folder⟩
  have fits := (completed 0).range ((completed 0).chooses ⟨first, firstNames⟩)
  have names : (header.sliders.get 0).choices = ["Low", "High"] := by
    decide +kernel
  have greatest := fits.max
  rw [names] at greatest
  have lists := (completed 1).listed "/data" folder
  rcases lists.exact with ⟨entries, listed, same⟩
  have present : (disk.list? "/data").map (fun entries =>
      (entries.filter (DataFile.isListed disk config.formats "/data")).map Prod.fst) =
      some ["b.txt", "a.WAV", "c.aif"] := by
    decide +kernel
  have found : disk.list? "/data" = some entries := listed
  rw [found, Option.map_some, Option.some_inj] at present
  refine ⟨succeeded, fits, (completed 1).range ((completed 1).chooses ⟨second, secondNames⟩),
    greatest, lists, present ▸ same, ?_⟩
  rw [again]

end Effect
end EffectHost

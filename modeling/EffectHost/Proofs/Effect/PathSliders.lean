import EffectHost.Proofs.Disk.AnyCase
import EffectHost.Proofs.Effect.Enumerations

/-!
# What the choices of a path slider open

A path slider offers the files of a folder.  The folder is looked for by its exact name, beside the
script and then in the folder for data.  When a choice is opened, the file is looked for in the same
places, but in each of them without regard to case, before the next one has its turn.
-/

namespace EffectHost

open Number

namespace FileFunctions

/-- The file that is found for an argument. -/
def foundFor? (facts : Facts) (arg : Arg) (strings : Strings) : Option String :=
  (target? facts.header arg strings).bind fun target =>
    DataFile.find? facts.disk target.1 target.2 facts.folder? facts.dataRoot?

/-- Open what has been found. -/
def openFound (facts : Facts) (found? : Option String) (files : FileTable) :
    Float × FileTable :=
  match found?.bind fun path =>
      (DataFile.openPath facts.disk facts.formats path).toOption.bind fun file =>
        (files.insert file).toOption with
  | some (index, table) => (Float.ofNat index, table)
  | none => (-1.0, files)

theorem openFile_cons (facts : Facts) (arg : Arg) (args : List Arg) (store : Store)
    (files : FileTable) :
    openFile facts (arg :: args) store files =
      openFound facts (foundFor? facts arg store.strings) files := by
  unfold openFile openFound foundFor?
  rw [Option.bind_assoc]
  rfl

/-- The argument is the variable of a slider and holds the number of a choice. -/
structure AsksFor (arg : Arg) (slot : Fin sliderSlots) (place : Nat) : Prop where
  slider : arg.cell?.bind HostVariable.sliderOf? = some slot
  choice : roundToSigned arg.value = place

/-- A choice of a path slider is looked for in the slider's folder. -/
theorem target?_of_asksFor {header : Header} {arg : Arg} {slot : Fin sliderSlots} {place : Nat}
    {name : String} (strings : Strings) (asks : AsksFor arg slot place)
    (isPath : (header.sliders.get slot).isPath = true)
    (named : (header.sliders.get slot).choices[place]? = some name) :
    target? header arg strings = some ((header.sliders.get slot).path ++ "/" ++ name, false) := by
  have chosen : chosenFile? (header.sliders.get slot) arg.value =
      some ((header.sliders.get slot).path ++ "/" ++ name) := by
    unfold chosenFile?
    dsimp only
    rw [asks.choice, if_neg (by omega), Int.toNat_natCast, named]
    rfl
  have own : (sliderOf? header arg).filter Slider.isPath = some (header.sliders.get slot) := by
    rw [sliderOf?, asks.slider]
    exact if_pos isPath
  unfold target?
  rw [own]
  dsimp only
  rw [chosen]
  rfl

theorem foundFor?_of_asksFor {facts : Facts} {arg : Arg} {slot : Fin sliderSlots} {place : Nat}
    {name : String} (strings : Strings) (asks : AsksFor arg slot place)
    (isPath : (facts.header.sliders.get slot).isPath = true)
    (named : (facts.header.sliders.get slot).choices[place]? = some name) :
    foundFor? facts arg strings =
      DataFile.find? facts.disk ((facts.header.sliders.get slot).path ++ "/" ++ name) false
        facts.folder? facts.dataRoot? := by
  unfold foundFor?
  rw [target?_of_asksFor strings asks isPath named]
  rfl

end FileFunctions

namespace Disk

/-- What is listed in a folder is a file at the path of the folder and the name. -/
theorem IsSpelled.locate {disk : Disk} (spelled : disk.IsSpelled) {folder name : String}
    {item : Item} {entries : List (String × Item)} (listed : disk.list? folder = some entries)
    (member : (name, item) ∈ entries) :
    ∃ location, disk.locate folder = .ok location ∧ disk.item? (location ++ [name]) = some item ∧
      (refusal? (folder ++ "/" ++ name) = none →
        disk.locate (folder ++ "/" ++ name) = .ok (location ++ [name])) := by
  unfold list? at listed
  cases leads : disk.locate folder with
  | error fault =>
      rw [leads] at listed
      cases listed
  | ok location =>
      rw [leads] at listed
      dsimp only at listed
      split at listed
      · next isFolder =>
          cases listed
          refine ⟨location, rfl, spelled.item? member, ?_⟩
          intro accepted
          have named : folder ≠ "" := by
            rintro rfl
            cases leads
          rw [locate_slash named (spelled.isEntryName member).toIsPlain accepted, leads]
          exact spelled.follow isFolder member
      · cases listed

end Disk

/-- A listed name is that of a file in the folder. -/
theorem DataFile.Lists.exists_file {disk : Disk} {formats : List AudioFormat}
    {folder name : String} {names : List String}
    (lists : DataFile.Lists disk formats folder names) (member : name ∈ names) :
    ∃ entries bytes, disk.list? folder = some entries ∧ (name, Item.file bytes) ∈ entries := by
  rcases lists.exact with ⟨entries, listed, same⟩
  rcases List.mem_map.mp (same.mem_iff.mp member) with ⟨⟨own, item⟩, kept, rfl⟩
  rcases List.mem_filter.mp kept with ⟨present, isListed⟩
  cases item with
  | file bytes => exact ⟨entries, bytes, listed, present⟩
  | folder => cases isListed

/-- What is continued behind a path may as well be joined at once. -/
theorem Path.join_slash {root path name : String} (named : path ≠ "")
    (relative : Path.isAbsolute path = false) :
    Path.join root (path ++ "/" ++ name) = Path.join root path ++ "/" ++ name := by
  by_cases nameless : root = ""
  · subst nameless
    simp [Path.join]
  · have longer : Path.isAbsolute (path ++ "/" ++ name) = false := by
      rw [String.append_assoc, Path.isAbsolute_append named, relative]
    rw [Path.join_eq_opened nameless longer, Path.join_eq_opened nameless relative]
    simp only [String.append_assoc]

/-- Where a folder has the file by its exact path, only the folders before it can have another. -/
theorem Disk.resolveAmong?_of_direct {disk : Disk} {before after : List String}
    {root relative : String} (direct : disk.isFile (Path.join root relative) = true) :
    disk.resolveAmong? (before ++ root :: after) relative =
      (before.findSome? (disk.resolveIn? · relative)).or (some (Path.join root relative)) := by
  unfold resolveAmong?
  rw [List.findSome?_append, List.findSome?_cons, resolveIn?_of_direct direct]

/-- The folder of a path slider is that of the first place which has it. -/
theorem Slider.exists_of_folder?_eq_some {disk : Disk} {folders : List String} {slider : Slider}
    {folder : String} (found : slider.folder? disk folders = some folder) :
    slider.isPath = true ∧ disk.isFolder folder = true ∧
      ∃ before root after, folders = before ++ root :: after ∧
      folder = Path.join root slider.path ∧
      ∀ earlier ∈ before, disk.isFolder (Path.join earlier slider.path) = false := by
  unfold folder? at found
  split_ifs at found with declared
  rw [Bool.and_eq_true] at declared
  rw [List.find?_map, Option.map_eq_some_iff] at found
  rcases found with ⟨root, first, joined⟩
  rcases List.find?_eq_some_iff_append.mp first with ⟨isFolder, before, after, split, others⟩
  refine ⟨declared.2, joined ▸ isFolder, before, root, after, split, joined.symm, ?_⟩
  intro earlier member
  simpa using others earlier member

namespace LoadedScript

/-- A loaded slider has the choices that its folder lists. -/
theorem lists_complete {disk : Disk} {config : Config} {unit : ScriptUnit}
    {slot : Fin sliderSlots} {folder : String} :
    let folders := unit.folder?.toList ++ config.dataRoot?.toList
    let slider := (complete disk config unit).1.header.sliders.get slot
    slider.folder? disk folders = some folder →
      DataFile.Lists disk config.formats folder slider.choices := by
  intro folders slider found
  let read := unit.header.sliders.get slot
  have ranged : (withListedChoices disk config.formats folders read).withChoiceRange.1 =
      slider := by
    have completed : slider =
        ((unit.header.sliders.map (withListedChoices disk config.formats folders)).map
          fun slider => slider.withChoiceRange.1).get slot := rfl
    rw [completed]
    simp [Vector.get_eq_getElem, read]
  have second := (Slider.withChoiceRange_fst ranged).1
  have first := withListedChoices_kept disk config.formats folders read
  dsimp only at first
  have same : slider.folder? disk folders = read.folder? disk folders := by
    rw [second, first]
    rfl
  rw [second]
  exact lists_withListedChoices config.formats (same.symm.trans found)

end LoadedScript

/-- The folders in which a script's files are looked for, in order. -/
def Facts.folders (facts : Facts) : List String :=
  facts.folder?.toList ++ facts.dataRoot?.toList

/-- What opening a choice of a path slider finds, once the folder of the slider has been listed. -/
theorem FileFunctions.foundFor?_listed {facts : Facts} (spelled : facts.disk.IsSpelled)
    {slot : Fin sliderSlots} {folder : String} :
    let disk := facts.disk
    let slider := facts.header.sliders.get slot
    slider.folder? disk facts.folders = some folder →
      DataFile.Lists disk facts.formats folder slider.choices →
        ∃ before root after location,
          facts.folders = before ++ root :: after ∧ folder = Path.join root slider.path ∧
          disk.locate folder = .ok location ∧
          (∀ earlier ∈ before, disk.isFolder (Path.join earlier slider.path) = false) ∧
          ∀ (place : Nat) (name : String), slider.choices[place]? = some name →
            (∃ bytes, disk.item? (location ++ [name]) = some (.file bytes)) ∧
            ∀ arg strings, AsksFor arg slot place →
              let relative := slider.path ++ "/" ++ name
              (Path.isAbsolute slider.path = true → foundFor? facts arg strings = none) ∧
              (Path.isAbsolute slider.path = false →
                Disk.refusal? (Path.join root relative) = none →
                  foundFor? facts arg strings =
                    (before.findSome? (disk.resolveIn? · relative)).or
                      (some (Path.join root relative)) ∧
                  disk.locate (Path.join root relative) = .ok (location ++ [name])) := by
  intro disk slider found lists
  rcases Slider.exists_of_folder?_eq_some found with
    ⟨isPath, isFolder, before, root, after, split, joined, others⟩
  rcases Disk.exists_locate_of_find? (Disk.find?_of_isFolder isFolder) with ⟨location, leads, _⟩
  have named : slider.path ≠ "" := by
    simpa [Slider.isPath] using isPath
  refine ⟨before, root, after, location, split, joined, leads, others, ?_⟩
  intro place name chosen
  rcases lists.exists_file (List.mem_of_getElem? chosen) with ⟨entries, bytes, listed, present⟩
  rcases spelled.locate listed present with ⟨location', leads', here, spells⟩
  cases leads.symm.trans leads'
  refine ⟨⟨bytes, here⟩, ?_⟩
  intro arg strings asks relative
  have longer : Path.isAbsolute relative = Path.isAbsolute slider.path := by
    change Path.isAbsolute (slider.path ++ "/" ++ name) = _
    rw [String.append_assoc, Path.isAbsolute_append named]
  rw [foundFor?_of_asksFor strings asks isPath chosen]
  unfold DataFile.find?
  rw [longer]
  constructor
  · intro absolute
    rw [absolute]
    rfl
  · intro within accepted
    have spelling : Path.join root relative = folder ++ "/" ++ name := by
      rw [joined]
      exact Path.join_slash named within
    have file : disk.locate (Path.join root relative) = .ok (location ++ [name]) := by
      rw [spelling] at accepted ⊢
      exact spells accepted
    have direct : disk.isFile (Path.join root relative) = true := by
      unfold Disk.isFile Disk.find?
      rw [file]
      dsimp only
      rw [here]
    have places : facts.folder?.toList ++ facts.dataRoot?.toList = before ++ root :: after := split
    rw [within, if_neg Bool.false_ne_true, places]
    exact ⟨Disk.resolveAmong?_of_direct direct, file⟩

namespace Effect

variable {σ : Type} {effect : Effect σ} {path : String} {ignoreImports : Bool}

/-- What the host functions know of a script that was loaded. -/
theorem facts_load (loaded : (effect.load path ignoreImports).result = .ok ()) :
    let facts := (effect.load path ignoreImports).effect.facts
    facts.disk = effect.rig.disk ∧ facts.folder? = Path.parent? path ∧
      facts.dataRoot? = effect.rig.config.dataRoot? ∧
      facts.formats = effect.rig.config.formats ∧
      ∃ main : ScriptUnit, main.folder? = Path.parent? path ∧ facts.header =
        (LoadedScript.complete effect.rig.disk effect.rig.config main).1.header := by
  unfold load at loaded ⊢
  dsimp only at loaded ⊢
  split at loaded
  · next script reports read =>
      rcases LoadedScript.load_eq_ok read with ⟨_, main, _, _, placed, own, _⟩
      refine ⟨rfl, ?_, rfl, rfl, main, placed, ?_⟩
      · change script.main.folder? = _
        rw [own, ← placed]
        rfl
      · change script.main.header = _
        rw [own]
        rfl
  · cases loaded

/-- A loaded path slider offers what its folder lists. -/
theorem lists_load (loaded : (effect.load path ignoreImports).result = .ok ())
    {slot : Fin sliderSlots} {folder : String} :
    let facts := (effect.load path ignoreImports).effect.facts
    let slider := facts.header.sliders.get slot
    slider.folder? facts.disk facts.folders = some folder →
      DataFile.Lists facts.disk facts.formats folder slider.choices := by
  intro facts slider found
  rcases facts_load loaded with ⟨disk, placed, root, formats, main, own, header⟩
  have completed : slider = (LoadedScript.complete effect.rig.disk effect.rig.config
      main).1.header.sliders.get slot := congrArg (fun header => header.sliders.get slot) header
  have places : facts.folders = main.folder?.toList ++ effect.rig.config.dataRoot?.toList := by
    unfold Facts.folders
    rw [placed, own, root]
  rw [completed, disk, places] at found
  rw [completed, disk, formats]
  exact LoadedScript.lists_complete found

/-- The choices of a path slider whose folder was found when the script was loaded are the names of
files in it.  When one of them is opened, that very file is found if the folder is not named from
the root, unless an earlier place has a file of that path in another case; a choice in a folder that
is named from the root is never found. -/
theorem listed_choices_open (effect : Effect σ) (path : String) (ignoreImports : Bool)
    (spelled : effect.rig.disk.IsSpelled) :
    let attempt := effect.load path ignoreImports
    let facts := attempt.effect.facts
    let disk := facts.disk
    attempt.result = .ok () →
      facts.disk = effect.rig.disk ∧
      facts.folders = (Path.parent? path).toList ++ effect.rig.config.dataRoot?.toList ∧
      ∀ (slot : Fin sliderSlots) (folder : String),
        let slider := facts.header.sliders.get slot
        slider.folder? disk facts.folders = some folder →
          ∃ before root after location,
            facts.folders = before ++ root :: after ∧ folder = Path.join root slider.path ∧
            disk.locate folder = .ok location ∧
            (∀ earlier ∈ before, disk.isFolder (Path.join earlier slider.path) = false) ∧
            ∀ (place : Nat) (name : String), slider.choices[place]? = some name →
              (∃ bytes, disk.item? (location ++ [name]) = some (.file bytes)) ∧
              ∀ arg args store files, FileFunctions.AsksFor arg slot place →
                let relative := slider.path ++ "/" ++ name
                let found? := FileFunctions.foundFor? facts arg store.strings
                FileFunctions.openFile facts (arg :: args) store files =
                  FileFunctions.openFound facts found? files ∧
                (Path.isAbsolute slider.path = true → found? = none) ∧
                (Path.isAbsolute slider.path = false →
                  Disk.refusal? (Path.join root relative) = none →
                    found? = (before.findSome? (disk.resolveIn? · relative)).or
                      (some (Path.join root relative)) ∧
                    disk.locate (Path.join root relative) = .ok (location ++ [name])) := by
  intro attempt facts disk succeeded
  rcases facts_load succeeded with ⟨sameDisk, placed, data, _⟩
  have tree : facts.disk.IsSpelled := sameDisk ▸ spelled
  refine ⟨sameDisk, ?_, ?_⟩
  · change facts.folder?.toList ++ facts.dataRoot?.toList = _
    rw [placed, data]
  · intro slot folder slider found
    rcases FileFunctions.foundFor?_listed tree found (lists_load succeeded found) with
      ⟨before, root, after, location, split, joined, leads, others, opens⟩
    refine ⟨before, root, after, location, split, joined, leads, others, ?_⟩
    intro place name chosen
    rcases opens place name chosen with ⟨file, opens⟩
    refine ⟨file, ?_⟩
    intro arg args store files asks relative found?
    exact ⟨FileFunctions.openFile_cons facts arg args store files, opens arg store.strings asks⟩

/-- The folder lies beside the script, and its file is opened. -/
theorem listed_choices_open_beside :
    let text := "desc:A\nslider1:/models:0:Model\n"
    let disk := (Disk.empty.addFile ["fx", "a.jsfx"] text.toUTF8).addFile
      ["fx", "models", "b.txt"] .empty
    let attempt := (Effect.new disk {} : Effect Unit).load "/fx/a.jsfx" false
    let facts := attempt.effect.facts
    let arg : Arg := ⟨0.0, some (HostVariable.slider 0).cell⟩
    disk.IsSpelled ∧ attempt.result = .ok () ∧
      (facts.header.sliders.get 0).folder? facts.disk facts.folders = some "/fx/models" ∧
      (facts.header.sliders.get 0).choices = ["b.txt"] ∧
      FileFunctions.AsksFor arg 0 0 ∧
      ∀ store : Store, FileFunctions.foundFor? facts arg store.strings = some "/fx/models/b.txt" := by
  intro text disk attempt facts arg
  have spelled : disk.IsSpelled :=
    (Disk.isSpelled_empty.addFile text.toUTF8 (by decide +kernel)).addFile .empty
      (by decide +kernel)
  have succeeded : attempt.result = .ok () := result_of_isOk (by decide +kernel)
  have read : (facts.header.sliders.get 0).folder? facts.disk facts.folders =
        some "/fx/models" ∧
      (facts.header.sliders.get 0).choices = ["b.txt"] ∧
      (facts.header.sliders.get 0).path = "models" := by
    decide +kernel
  rcases read with ⟨folder, choices, path⟩
  have asks : FileFunctions.AsksFor arg 0 0 :=
    ⟨HostVariable.sliderOf?_cell 0, by decide +kernel⟩
  refine ⟨spelled, succeeded, folder, choices, asks, ?_⟩
  intro store
  rcases listed_choices_open (Effect.new disk {} : Effect Unit) "/fx/a.jsfx" false spelled
    succeeded with ⟨_, places, opens⟩
  rcases opens 0 "/fx/models" folder with ⟨before, root, after, location, split, _, _, _, opens⟩
  rcases opens 0 "b.txt" (by rw [choices]; rfl) with ⟨_, opens⟩
  rcases opens arg [] store {} asks with ⟨_, _, found⟩
  have alone : before ++ root :: after = ["/fx"] := split.symm.trans places
  have sole : before = [] ∧ root = "/fx" := by
    cases before with
    | nil => exact ⟨rfl, (List.cons.inj alone).1⟩
    | cons first others => simp at alone
  rcases sole with ⟨rfl, rfl⟩
  rw [path] at found
  exact (found (by decide +kernel) (by decide +kernel)).1

/-- The folder is found beside the data, but beside the script the file is found in another one. -/
theorem listed_choice_opens_other :
    let text := "desc:A\nslider1:/models:0:Model\n"
    let disk := ((Disk.empty.addFile ["fx", "a.jsfx"] text.toUTF8).addFile
      ["fx", "Models", "m.txt"] .empty).addFile ["data", "models", "m.txt"] .empty
    let config : Config := { dataRoot? := some "/data" }
    let attempt := (Effect.new disk config : Effect Unit).load "/fx/a.jsfx" false
    let facts := attempt.effect.facts
    let arg : Arg := ⟨0.0, some (HostVariable.slider 0).cell⟩
    disk.IsSpelled ∧ attempt.result = .ok () ∧
      (facts.header.sliders.get 0).folder? disk facts.folders = some "/data/models" ∧
      (facts.header.sliders.get 0).choices = ["m.txt"] ∧
      FileFunctions.AsksFor arg 0 0 ∧
      (∀ strings, FileFunctions.foundFor? facts arg strings = some "/fx/Models/m.txt") ∧
      disk.locate "/data/models" = .ok ["data", "models"] ∧
      disk.locate "/fx/Models/m.txt" = .ok ["fx", "Models", "m.txt"] := by
  intro text disk config attempt facts arg
  have asks : FileFunctions.AsksFor arg 0 0 :=
    ⟨HostVariable.sliderOf?_cell 0, by decide +kernel⟩
  have spelled : disk.IsSpelled :=
    ((Disk.isSpelled_empty.addFile text.toUTF8 (by decide +kernel)).addFile .empty
      (by decide +kernel)).addFile .empty (by decide +kernel)
  have read : (facts.header.sliders.get 0).isPath = true ∧
      (facts.header.sliders.get 0).choices = ["m.txt"] ∧
      (facts.header.sliders.get 0).folder? disk facts.folders = some "/data/models" ∧
      DataFile.find? facts.disk ((facts.header.sliders.get 0).path ++ "/" ++ "m.txt") false
        facts.folder? facts.dataRoot? = some "/fx/Models/m.txt" := by
    decide +kernel
  rcases read with ⟨isPath, choices, folder, found⟩
  refine ⟨spelled, result_of_isOk (by decide +kernel), folder, choices, asks, ?_,
    by decide +kernel, by decide +kernel⟩
  intro strings
  exact (FileFunctions.foundFor?_of_asksFor strings asks isPath (by rw [choices]; rfl)).trans found

end Effect
end EffectHost

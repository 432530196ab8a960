import EffectHost.Proofs.Code.Denotation
import EffectHost.Proofs.Effect.CellCounts
import EffectHost.Proofs.Effect.SettledNames
import EffectHost.Proofs.Effect.SliderValues

/-!
# What names denote

The names of the host and of sliders denote the same cells whenever a script is compiled.  Any other
name denotes a cell that is made for it, the same one in all sections.  The cell holds zero when
compiling ends, and no name has ever denoted it before.
-/

namespace EffectHost

open Code Text

/-- The program is the code of the section, in which each name is the cell that it denotes. -/
def Section.Means (part : Section) (denotes? : String → Option Cell) (program : Program) : Prop :=
  ∃ statements, Code.statements? part.text = some statements ∧
    Code.Resolves denotes? statements program

/-! ## Sections -/

namespace CompilesTo

variable {resolve : String → Option Cell} {machine last target : Machine} {parts : List Section}
  {ids : List Nat}

theorem grows (run : CompilesTo resolve machine parts ids last) : machine.Grows last := by
  induction run with
  | nil machine => exact .refl machine
  | @cons start _ _ part _ _ _ first _ ih =>
      have here := Machine.grows_keptByCompiling.compile start part.text resolve
      rw [first] at here
      exact here.trans ih

/-- A name is the same cell in all sections. -/
theorem means (run : CompilesTo resolve machine parts ids last) (grows : last.Grows target) :
    List.Forall₂ (fun part id => ∃ program, last.code.programs[id]? = some program ∧
      part.Means (target.denotes? resolve) program) parts ids := by
  induction run with
  | nil => exact .nil
  | @cons start next last part others id ids first rest ih =>
      rcases Machine.resolves_compile first (rest.grows.trans grows) with
        ⟨statements, program, read, added, resolved⟩
      refine .cons ⟨program, ?_, statements, read, resolved⟩ (ih grows)
      rw [rest.others_eq, added]
      intro again
      have bounds := rest.fresh.2 id again
      have following := (Machine.compile_adds first).2.1
      omega

end CompilesTo

namespace CompiledSections

/-- The programs of a kind are those of the sections of this kind. -/
theorem forall₂_ofKind {related : Section → Nat → Prop} {parts : List Section} {ids : List Nat}
    (each : List.Forall₂ related parts ids) (kind : SectionKind) :
    List.Forall₂ related (parts.filter fun part => part.kind = kind)
      (ofKind ⟨(parts.map Section.kind).zip ids⟩ kind) := by
  induction each with
  | nil => exact .nil
  | @cons part id others more first _ ih =>
      rw [ofKind, List.map_cons, List.zip_cons_cons, List.filter_cons, List.filterMap_cons]
      dsimp only
      by_cases own : part.kind = kind
      · rw [if_pos (decide_eq_true own), if_pos own]
        exact .cons first ih
      · rw [if_neg (by simpa using own), if_neg own]
        exact ih

end CompiledSections

/-! ## Effects -/

namespace Effect

variable {σ : Type} {painter : Painter σ} {config : Config}

/-- The cell of the slider with a name. -/
def aliasCell? (effect : Effect σ) (name : String) : Option Cell :=
  effect.rig.info?.bind fun info => info.aliases.cell? name

/-- The cell that a name denotes in the code of an effect. -/
def denotes? (effect : Effect σ) : String → Option Cell :=
  effect.machine.denotes? effect.aliasCell?

/-- The numbers of the programs of a kind. -/
def idsOf (effect : Effect σ) (kind : SectionKind) : List Nat :=
  if kind = .init then effect.initIds else (effect.programId? kind).toList

/-- Unloading leaves the names of the host and no others. -/
theorem names_unloadCode {effect : Effect σ} (registers : effect.machine.Registers)
    (name : String) :
    effect.unloadCode.machine.code.names[name]? = Machine.hosted.code.names[name]? :=
  Machine.names_reset (registers_released registers) name

theorem separated_unloadCode {effect : Effect σ} (reached : Reached painter config effect) :
    effect.unloadCode.machine.Separated :=
  Machine.separated_of_names (grounded_unloadCode reached.grounded).hosted
    (names_unloadCode reached.lasting.registers)

/-- Wherever an effect has been led, its names are apart, and their cells are there. -/
theorem Reached.separated {effect : Effect σ} (reached : Reached painter config effect) :
    effect.machine.Separated := by
  induction reached with
  | new disk => exact Machine.separated_of_names Store.hosted_hosted fun _ => rfl
  | @load effect before path ignoreImports _ =>
      have emptied := separated_unloadCode before
      rw [Effect.load]
      split
      · exact emptied.of_names (Nat.le_of_eq (sameShape_defaultSliders _ _).cells.symm)
          fun _ _ known => known
      · exact emptied
  | @compile effect before options _ =>
      have grows := kept_compile Machine.grows_keptByCompiling effect options
      exact grows.separated (separated_unloadCode before)
  | unloadCode before _ => exact separated_unloadCode before
  | unload before _ => exact separated_unloadCode before
  | @moment effect before next ih =>
      have code := (keepsCode_moment painter effect next).code
      have cells : (effect.moment painter next).machine.store.cells.size =
          effect.machine.store.cells.size := (sameShape_moment effect next).cells
      apply ih.of_names (Nat.le_of_eq cells.symm)
      intro name cell known
      change (effect.moment painter next).rig.code.names[name]? = some cell at known
      rw [code] at known
      exact known

/-- What a name denotes is there. -/
theorem Reached.denotes?_lt {effect : Effect σ} (reached : Reached painter config effect)
    {name : String} {cell : Cell} (known : effect.denotes? name = some cell) :
    cell.index < effect.store.cells.size := by
  rcases Option.or_eq_some_iff.mp known with own | ⟨_, named⟩
  · rcases Option.bind_eq_some_iff.mp own with ⟨info, _, found⟩
    exact Nat.lt_of_lt_of_le (info.aliases.resolvesHosted name cell found) reached.grounded.hosted
  · exact reached.separated.there name cell named

/-! ## What names denote -/

/-- What the names of an effect denote, the code of which has been compiled when names had denoted
some cells before. -/
structure Scoped (effect : Effect σ) (used : Cell → Prop) : Prop where
  /-- A name of the host that is no name of a slider denotes the cell of the host. -/
  host : ∀ told : HostVariable,
    (∀ slider ∈ effect.header.declaredSliders,
      asciiLower slider.variableName ≠ asciiLower told.name) →
    effect.denotes? told.name = some told.cell
  /-- A name that one slider has and no other denotes the cell of the slider. -/
  slider : ∀ slider ∈ effect.header.declaredSliders,
    (∀ other ∈ effect.header.declaredSliders,
      asciiLower other.variableName = asciiLower slider.variableName → other = slider) →
    ∀ name, asciiLower name = asciiLower slider.variableName →
      ∃ slot : Fin sliderSlots, slot = slider.slot ∧
        effect.denotes? name = some (HostVariable.slider slot).cell
  /-- Any other name denotes a new cell of its own, which holds zero. -/
  other : ∀ name, (∀ told : HostVariable, told.name ≠ name) →
    (∀ slider ∈ effect.header.declaredSliders,
      asciiLower slider.variableName ≠ asciiLower name) →
    ∀ cell, effect.denotes? name = some cell →
      effect.store.get cell = 0.0 ∧ ¬ used cell ∧ (∀ told : HostVariable, told.cell ≠ cell) ∧
        ∀ another, effect.denotes? another = some cell → another = name

theorem Grounded.aliasCell?_eq {effect : Effect σ} (grounded : effect.Grounded config) :
    effect.aliasCell? = (SliderAliases.ofHeader effect.header).cell? := by
  funext name
  rw [aliasCell?, header, grounded.informed]
  cases effect.rig.script? with
  | some script => rfl
  | none =>
      have none : ({} : Header).declaredSliders = [] := by decide
      have unknown : (SliderAliases.ofHeader {}).cell? name = Option.none :=
        SliderAliases.cell?_eq_none (by rw [none]; exact List.forall_mem_nil _)
      exact unknown.symm

theorem scoped_compile {effect : Effect σ} (reached : Reached painter config effect)
    {used : Cell → Prop} (there : ∀ cell, used cell → cell.index < effect.store.cells.size)
    (options : CompileOptions) : (effect.compile options).effect.Scoped used := by
  have compiled := reached.compile options
  have grounded := compiled.grounded
  have aliases := grounded.aliasCell?_eq
  refine ⟨fun told unused => ?_, fun slider member alone name own => ?_,
    fun name foreign unused cell known => ?_⟩
  · rw [denotes?, Machine.denotes?, aliases, SliderAliases.cell?_eq_none unused]
    exact compiled.lasting.registers.names_eq
      (HostVariable.cellOfName?_eq_some.mpr ⟨told, rfl, rfl⟩)
  · rw [Header.declaredSliders_eq] at member
    rcases List.mem_map.mp member with ⟨slot, _, rfl⟩
    rw [← Header.declaredSliders_eq] at member
    have numbered := grounded.slotted slot
    refine ⟨slot, numbered.symm, ?_⟩
    rw [denotes?, Machine.denotes?, aliases, SliderAliases.cell?_eq_some ⟨_, member, own.symm⟩]
    · rfl
    · intro other declared same
      rw [alone other declared (same.trans own), numbered]
  · have named : (effect.compile options).effect.machine.code.names[name]? = some cell := by
      rwa [denotes?, Machine.denotes?, aliases, SliderAliases.cell?_eq_none unused] at known
    have fresh := kept_compile Machine.namesFreshly_keptByCompiling effect options
    rcases fresh.names name cell named with old | ⟨above, _, zero⟩
    · rw [names_unloadCode reached.lasting.registers, Machine.names_hosted_eq_some] at old
      rcases old with ⟨told, same, _⟩
      exact absurd same (foreign told)
    · have count : effect.store.cells.size ≤ cell.index := cells_unloadCode effect ▸ above
      have behind : HostVariable.all.length ≤ cell.index := Nat.le_trans reached.grounded.hosted count
      refine ⟨zero, fun before => ?_, fun told same => ?_, fun another also => ?_⟩
      · exact absurd (there cell before) (Nat.not_lt.mpr count)
      · have inside := told.index_lt_length
        rw [same] at inside
        omega
      · rcases Option.or_eq_some_iff.mp also with slider | ⟨_, named'⟩
        · rw [aliases] at slider
          have inside := SliderAliases.resolvesHosted _ another cell slider
          omega
        · exact compiled.separated.apart another name cell named' named

/-- An effect has the programs that it takes. -/
theorem idsOf_installCode (effect : Effect σ) {sections : CompiledSections} {kind : SectionKind}
    (few : kind ≠ .init → (sections.programs.map Prod.fst).count kind ≤ 1) :
    (effect.installCode sections).idsOf kind = sections.ofKind kind := by
  rw [idsOf]
  split
  · next init => rw [initIds_installCode, init]
  · next notInit =>
      have single : (effect.installCode sections).programId? kind = sections.single? kind := by
        by_cases drawing : kind = .gfx
        · rw [programId?, if_pos drawing, drawing]
          rfl
        · exact programId?_installCode effect sections drawing
      rw [single, CompiledSections.toList_single? (few notInit)]

/-- Without sections and without a drawing program there are no programs. -/
theorem idsOf_of_absent {effect : Effect σ} (absent : effect.rig.sections? = none)
    (undrawn : effect.rig.drawing.program? = none) (kind : SectionKind) :
    effect.idsOf kind = [] := by
  rw [idsOf, initIds, programId?, absent, undrawn]
  cases kind <;> rfl

/-- The programs of an effect are the code of the sections that it takes, kind by kind. -/
theorem means_installCode {effect : Effect σ} {info : ScriptInfo} {script : LoadedScript}
    {options : CompileOptions} {sections : CompiledSections} {machine last : Machine}
    (informed : effect.rig.info? = some info) (undrawn : effect.rig.drawing.program? = none)
    (compiled : CompiledSections.compile info.aliases.cell? script options machine =
      (.ok sections, last)) (kind : SectionKind) :
    let installed := (effect.withMachine last).installCode sections
    List.Forall₂ (fun part id => part.Means installed.denotes? (installed.programOf id))
      ((script.sectionsToCompile options).filter fun part => part.kind = kind)
      (installed.idsOf kind) := by
  intro installed
  rcases CompiledSections.compileAll_ok compiled with ⟨ids, run, programs⟩
  have own : installed.idsOf kind =
      CompiledSections.ofKind ⟨((script.sectionsToCompile options).map Section.kind).zip ids⟩ kind := by
    have few (notInit : kind ≠ .init) : (sections.programs.map Prod.fst).count kind ≤ 1 := by
      rw [(CompiledSections.compile_ok compiled).2]
      exact script.count_kinds_le options notInit
    rw [idsOf_installCode _ few, CompiledSections.ofKind, programs]
    rfl
  have kept : installed.machine = last := by
    change last.freeAll effect.rig.drawing.program?.toList = last
    rw [undrawn]
    rfl
  have aliases : installed.aliasCell? = info.aliases.cell? := by
    funext name
    change effect.rig.info?.bind (fun info => info.aliases.cell? name) = _
    rw [informed]
    rfl
  rw [own]
  refine (CompiledSections.forall₂_ofKind (run.means (.refl last)) kind).imp fun part id found => ?_
  rcases found with ⟨program, added, means⟩
  have taken : installed.programOf id = program := by
    change installed.machine.code.programs.getD id [] = program
    rw [kept, Std.HashMap.getD_eq_getD_getElem?, added, Option.getD_some]
  rw [denotes?, taken, kept, aliases]
  exact means

/-- Where compiling succeeds, the programs are the code of the sections, kind by kind.  Where it
fails, there are none. -/
theorem means_compile (effect : Effect σ) (options : CompileOptions) :
    match (effect.compile options).result with
    | .ok () => ∃ script, effect.rig.script? = some script ∧ ∀ kind,
      List.Forall₂ (fun part id => part.Means (effect.compile options).effect.denotes?
          ((effect.compile options).effect.programOf id))
        ((script.sectionsToCompile options).filter fun part => part.kind = kind)
        ((effect.compile options).effect.idsOf kind)
    | .error _ => ∀ kind, (effect.compile options).effect.idsOf kind = [] := by
  rcases effect.compile_cases options with
    ⟨script, info, sections, machine, known, informed, compiled, done⟩ |
    ⟨_, _, _, _, _, _, done⟩ | ⟨_, _, done⟩
  · rw [done]
    have still : effect.unloadCode.rig.info? = some info := informed
    exact ⟨script, known, means_installCode still rfl compiled⟩
  · rw [done]
    exact idsOf_of_absent rfl rfl
  · rw [done]
    exact idsOf_of_absent rfl rfl

/-- At some point in the course of actions a name has denoted the cell. -/
def Denoted (start : Effect σ) (painter : Painter σ) (actions : List (HostAction σ)) (cell : Cell) :
    Prop :=
  ∃ past name, past <+: actions ∧ (start.after painter past).denotes? name = some cell

/-- Names keep their scope, whatever has happened to an effect.  Whenever a script is compiled,
whether it succeeds or not, the names of the host and of sliders denote the same cells as ever.  Any
other name denotes a cell that holds zero, belongs to this name alone, and has never been denoted
before.  Where compiling succeeds, each name stands for its cell in the code of all sections. -/
theorem names_keep_scope (confined : painter.Confined) (disk : Disk) (config : Config)
    (actions : List (HostAction σ)) (options : CompileOptions) :
    let start : Effect σ := Effect.new disk config
    let effect := start.after painter actions
    let attempt := effect.compile options
    let compiled := attempt.effect
    compiled.Scoped (Denoted start painter actions) ∧
      match attempt.result with
      | .ok () => ∃ script, effect.rig.script? = some script ∧ ∀ kind,
        List.Forall₂ (fun part id => part.Means compiled.denotes? (compiled.programOf id))
          ((script.sectionsToCompile options).filter fun part => part.kind = kind)
          (compiled.idsOf kind)
      | .error _ => ∀ kind, compiled.idsOf kind = [] := by
  intro start effect attempt compiled
  have reached : Reached painter config effect := reached_after confined disk config actions
  refine ⟨scoped_compile reached ?_ options, means_compile effect options⟩
  rintro cell ⟨past, name, ⟨others, split⟩, denoted⟩
  have whole : effect = (start.after painter past).after painter others := by
    show start.after painter actions = _
    rw [← split]
    exact List.foldl_append
  have there := (reached_after confined disk config past).denotes?_lt denoted
  rw [whole]
  exact Nat.lt_of_lt_of_le there (cells_le_after confined (start.after painter past) others)

/-- A script with a slider that has a name of its own is compiled once more. -/
theorem names_keep_scope_recompiled :
    let painter : Painter Unit :=
      { size := fun _ => (4, 3), scale := fun _ => 1.0, reset := fun surface => surface
        call := fun _ _ effect => (0.0, effect), takeDirty := fun surface => (true, surface) }
    let disk := Disk.empty.addFile ["script"]
      "slider1:Vol=1<0,2>Level\n@init\ntmp = vol;\n@sample\nspl0 = tmp;\n".toUTF8
    let actions : List (HostAction Unit) := [.load "/script" false, .compile {}]
    let start : Effect Unit := Effect.new disk {}
    let effect := start.after painter actions
    let compiled := (effect.compile {}).effect
    painter.Confined ∧ compiled.denotes? "VOL" = some (HostVariable.slider 0).cell ∧
      compiled.denotes? "spl0" = some (HostVariable.channel 0).cell ∧
      ∃ cell, compiled.denotes? "tmp" = some cell ∧ compiled.store.get cell = 0.0 ∧
        ¬ Denoted start painter actions cell := by
  intro painter disk actions start effect compiled
  have confined : painter.Confined := fun _ _ _ => ⟨[], rfl⟩
  rcases names_keep_scope confined disk {} actions {} with ⟨scopes, means⟩
  have sliders : compiled.header.declaredSliders.map
      (fun slider => (slider.variableName, slider.slot)) =
      [("Vol", 0)] := by decide +kernel
  rcases List.map_eq_singleton_iff.mp sliders with ⟨slider, declared, named⟩
  rcases Prod.mk.inj named with ⟨name, number⟩
  have only : slider ∈ compiled.header.declaredSliders := declared ▸ List.mem_singleton_self _
  have single : ∀ other ∈ compiled.header.declaredSliders, other = slider := by
    rw [declared]
    exact fun other => List.mem_singleton.mp
  have unused (word : String) (other : asciiLower "Vol" ≠ asciiLower word) :
      ∀ slider ∈ compiled.header.declaredSliders,
        asciiLower slider.variableName ≠ asciiLower word := by
    intro other' member
    rw [single other' member, name]
    exact other
  refine ⟨confined, ?_, ?_, ?_⟩
  · rcases scopes.slider slider only (fun other member _ => single other member) "VOL"
      (by rw [name]; decide) with ⟨slot, same, denoted⟩
    rw [number] at same
    rw [denoted, show slot = 0 from Fin.ext same]
  · exact scopes.host (.channel 0) (unused _ (by decide))
  · have succeeded : (effect.compile {}).result.isOk = true := by decide +kernel
    have mentioned : effect.rig.script?.all (fun script =>
        ((script.sectionsToCompile {}).filter fun part => part.kind = .init).map (fun part =>
          (Code.statements? part.text).map variablesOfAll) == [some ["tmp", "vol"]]) = true := by
      decide +kernel
    have there : ∃ cell, compiled.denotes? "tmp" = some cell := by
      split at means
      · rcases means with ⟨script, known, each⟩
        rw [known, Option.all_some, beq_iff_eq] at mentioned
        rcases List.map_eq_singleton_iff.mp mentioned with ⟨part, alone, read⟩
        have init := each .init
        rw [alone, List.forall₂_cons_left_iff] at init
        rcases init with ⟨_, _, ⟨statements, own, resolved⟩, _⟩
        rw [own, Option.map_some, Option.some_inj] at read
        rcases resolved.exists_cell (read ▸ List.mem_cons_self) with ⟨cell, _, denoted⟩
        exact ⟨cell, denoted⟩
      · next failed =>
          rw [failed] at succeeded
          cases succeeded
    rcases there with ⟨cell, denoted⟩
    have foreign (told : HostVariable) : told.name ≠ "tmp" := by
      intro same
      have unknown : HostVariable.cellOfName? "tmp" = none := by decide +kernel
      rw [HostVariable.cellOfName?_eq_some.mpr ⟨told, same, rfl⟩] at unknown
      cases unknown
    rcases scopes.other "tmp" foreign (unused _ (by decide)) cell denoted with ⟨zero, new, _⟩
    exact ⟨cell, denoted, zero, new⟩

end Effect
end EffectHost

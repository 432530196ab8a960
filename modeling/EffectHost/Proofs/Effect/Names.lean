import EffectHost.Proofs.Effect.Alike

/-!
# Names in the source

Whether code looks at what a cycle tells about itself can be read off its source.  The cell
of a host variable has one name, which is never given to another cell, and a name that is
not known denotes a new cell.  Code that mentions none of the three names therefore refers
to none of the three cells, whatever else it mentions.
-/

namespace EffectHost

open Code

/-- The names by which code refers to what every cycle tells. -/
def HostVariable.namesOfCycle : List String :=
  ofCycle.map name

/-- The variables that code mentions; none if it cannot be read. -/
def Code.mentions (source : String) : List String :=
  match Token.scan source with
  | .ok tokens =>
    match program tokens with
    | .ok statements => variablesOfAll statements
    | .error _ => []
  | .error _ => []

/-- The code of the section mentions nothing that a cycle tells about itself. -/
def Section.Overlooks (part : Section) : Prop :=
  ∀ name ∈ Code.mentions part.text, name ∉ HostVariable.namesOfCycle

instance (part : Section) : Decidable part.Overlooks :=
  inferInstanceAs (Decidable (∀ name ∈ Code.mentions part.text,
    name ∉ HostVariable.namesOfCycle))

/-- The script has no block section, and its code for cycles mentions nothing that a cycle
tells about itself. -/
def LoadedScript.Overlooks (script : LoadedScript) (options : CompileOptions) : Prop :=
  script.has .block = false ∧ ∀ part ∈ script.sectionsToCompile options,
    part.kind ∈ [.init, .slider, .sample] → part.Overlooks

instance (script : LoadedScript) (options : CompileOptions) :
    Decidable (script.Overlooks options) :=
  inferInstanceAs (Decidable (_ ∧ ∀ part ∈ script.sectionsToCompile options,
    part.kind ∈ [SectionKind.init, .slider, .sample] → part.Overlooks))

/-- A name resolves to cells that no cycle sets. -/
def ResolvesLasting (resolve : String → Option Cell) : Prop :=
  ∀ name cell, resolve name = some cell → cell.Lasting

theorem SliderAliases.resolvesLasting (aliases : SliderAliases) :
    ResolvesLasting aliases.cell? := by
  intro name cell found
  rw [cell?, Option.bind_eq_bind, Option.bind_eq_some_iff] at found
  rcases found with ⟨slot, _, own⟩
  split at own
  · cases own
    apply HostVariable.lasting_cell
    simp [HostVariable.ofCycle]
  · cases own

namespace Machine

/-- The cells of the host are there, and no other name denotes one of them. -/
structure Named (machine : Machine) : Prop where
  hosted : machine.store.Hosted
  names : ∀ (name : String) (told : HostVariable),
    machine.code.names[name]? = some told.cell → told.name = name

theorem named_hosted : Machine.hosted.Named := by
  have inserted : ∀ (told : List HostVariable) (known : Std.HashMap String Cell)
      (name : String) (cell : Cell),
      (told.foldl (fun names v => names.insert v.name v.cell) known)[name]? = some cell →
        known[name]? = some cell ∨ ∃ other : HostVariable, other.name = name ∧ other.cell = cell := by
    intro told
    induction told with
    | nil => exact fun _ _ _ found => Or.inl found
    | cons first others ih =>
        intro known name cell found
        rcases ih _ name cell found with old | behind
        · rw [Std.HashMap.getElem?_insert] at old
          split at old
          · next same =>
              cases old
              exact Or.inr ⟨first, beq_iff_eq.mp same, rfl⟩
          · exact Or.inl old
        · exact Or.inr behind
  refine ⟨Store.hosted_hosted, ?_⟩
  intro name told found
  rcases inserted HostVariable.all ∅ name told.cell found with never | ⟨other, named, same⟩
  · simp at never
  · rw [← HostVariable.cell_injective same]
    exact named

theorem Named.of_names {before after : Machine} (named : before.Named)
    (cells : before.store.cells.size ≤ after.store.cells.size)
    (names : ∀ (name : String) (cell : Cell), after.code.names[name]? = some cell →
      before.code.names[name]? = some cell) : after.Named :=
  ⟨Nat.le_trans named.hosted cells, fun name told found =>
    named.names name told (names name told.cell found)⟩

theorem ne_cell_of_hosted {store : Store} (hosted : store.Hosted) (told : HostVariable) :
    told.cell ≠ ⟨store.cells.size⟩ := by
  intro same
  have inside := Nat.lt_of_lt_of_le (HostVariable.index_lt_length told) hosted
  rw [same] at inside
  exact Nat.lt_irrefl _ inside

/-- A cell that a name comes to denote is told by no cycle, unless it is known by that
name. -/
theorem named_cellOf {machine : Machine} (named : machine.Named) (name : String) :
    (machine.cellOf name).2.Named ∧
      (name ∉ HostVariable.namesOfCycle → (machine.cellOf name).1.Lasting) := by
  rw [cellOf]
  cases found : machine.code.names[name]? with
  | some cell =>
      refine ⟨named, ?_⟩
      rintro other told member rfl
      rw [← named.names name told found] at other
      exact other (List.mem_map_of_mem member)
  | none =>
      constructor
      · refine ⟨Nat.le_trans named.hosted (by simp [Store.addCell]), ?_⟩
        intro other told entry
        rw [Std.HashMap.getElem?_insert] at entry
        split at entry
        · exact absurd (Option.some.inj entry).symm (ne_cell_of_hosted named.hosted told)
        · exact named.names other told entry
      · exact fun _ told _ same => ne_cell_of_hosted named.hosted told same.symm

theorem named_link {resolve : String → Option Cell} (resolves : ResolvesLasting resolve)
    {machine : Machine} (named : machine.Named) (name : String) :
    (machine.link resolve name).2.Named ∧
      (name ∉ HostVariable.namesOfCycle → (machine.link resolve name).1.Lasting) := by
  rw [link]
  cases found : resolve name with
  | some cell => exact ⟨named, fun _ => resolves name cell found⟩
  | none => exact named_cellOf named name

/-- Linked code keeps names apart, and refers to cells that no cycle sets if it mentions
none of the names. -/
def LinksLasting (names : List String) (cells : List Cell) (machine : Machine) : Prop :=
  machine.Named ∧ ((∀ name ∈ names, name ∉ HostVariable.namesOfCycle) →
    ∀ cell ∈ cells, cell.Lasting)

theorem LinksLasting.append {names more : List String} {cells others : List Cell}
    {machine next : Machine} (first : LinksLasting names cells machine)
    (second : LinksLasting more others next) :
    LinksLasting (names ++ more) (cells ++ others) next := by
  refine ⟨second.1, ?_⟩
  intro overlooked
  rw [List.forall_mem_append] at overlooked ⊢
  exact ⟨first.2 overlooked.1, second.2 overlooked.2⟩

mutual

theorem linksLasting_linkExpr {resolve : String → Option Cell}
    (resolves : ResolvesLasting resolve) :
    ∀ (expression : SourceExpr) {machine : Machine}, machine.Named →
      let linked := linkExpr resolve expression machine
      LinksLasting expression.variables linked.1.variables linked.2
  | .number _, _, named => ⟨named, fun _ => List.forall_mem_nil _⟩
  | .text _, _, named => ⟨⟨named.hosted, named.names⟩, fun _ => List.forall_mem_nil _⟩
  | .variable name, machine, named => by
      rcases named_link resolves named name with ⟨linked, lasting⟩
      refine ⟨linked, fun overlooked => List.forall_mem_singleton.mpr ?_⟩
      exact lasting (overlooked name List.mem_cons_self)
  | .item base index, _, named =>
      have left := linksLasting_linkExpr resolves base named
      left.append (linksLasting_linkExpr resolves index left.1)
  | .negate operand, _, named => linksLasting_linkExpr resolves operand named
  | .binary _ left right, _, named =>
      have earlier := linksLasting_linkExpr resolves left named
      earlier.append (linksLasting_linkExpr resolves right earlier.1)
  | .call _ arguments, _, named => linksLasting_linkAll resolves arguments named
  | .assign name value, machine, named => by
      rcases named_link resolves named name with ⟨linked, lasting⟩
      have inner := linksLasting_linkExpr resolves value linked
      refine ⟨inner.1, fun overlooked => ?_⟩
      have parts := List.forall_mem_cons.mp overlooked
      exact List.forall_mem_cons.mpr ⟨lasting parts.1, inner.2 parts.2⟩
  | .assignItem base index value, _, named =>
      have left := linksLasting_linkExpr resolves base named
      have right := linksLasting_linkExpr resolves index left.1
      (left.append right).append (linksLasting_linkExpr resolves value right.1)

theorem linksLasting_linkAll {resolve : String → Option Cell}
    (resolves : ResolvesLasting resolve) :
    ∀ (expressions : List SourceExpr) {machine : Machine}, machine.Named →
      let linked := linkAll resolve expressions machine
      LinksLasting (variablesOfAll expressions) (variablesOfAll linked.1) linked.2
  | [], _, named => ⟨named, fun _ => List.forall_mem_nil _⟩
  | first :: others, _, named =>
      have head := linksLasting_linkExpr resolves first named
      head.append (linksLasting_linkAll resolves others head.1)

end

/-- Compiled code refers to cells that no cycle sets, if its source mentions none of the
names. -/
theorem named_compile {resolve : String → Option Cell} (resolves : ResolvesLasting resolve)
    {machine next : Machine} (named : machine.Named) {source : String} {id : Nat}
    (compiled : machine.compile source resolve = (.ok id, next)) :
    next.Named ∧ ∃ program : Program, next.code.programs[id]? = some program ∧
      ((∀ name ∈ Code.mentions source, name ∉ HostVariable.namesOfCycle) →
        program.Within Cell.Lasting) := by
  rw [compile] at compiled
  rw [Code.mentions]
  cases scanned : Token.scan source with
  | error fault =>
      rw [scanned] at compiled
      cases compiled
  | ok tokens =>
      rw [scanned] at compiled
      dsimp only at compiled ⊢
      cases read : program tokens with
      | error stop =>
          rw [read] at compiled
          cases compiled
      | ok statements =>
          rw [read] at compiled
          cases compiled
          rcases linksLasting_linkAll resolves statements named with ⟨linked, lasting⟩
          refine ⟨⟨linked.hosted, linked.names⟩, (linkAll resolve statements machine).1, ?_,
            lasting⟩
          exact Std.HashMap.getElem?_insert_self

end Machine

/-- Of the sections that go through a machine, those that overlook what a cycle tells have
programs that do so. -/
theorem CompilesTo.program_within {resolve : String → Option Cell}
    (resolves : ResolvesLasting resolve) {machine last : Machine} {parts : List Section}
    {ids : List Nat} (run : CompilesTo resolve machine parts ids last)
    (named : machine.Named) {kind : SectionKind} {id : Nat}
    (member : (kind, id) ∈ (parts.map Section.kind).zip ids)
    (overlooks : ∀ part ∈ parts, part.kind = kind → part.Overlooks) :
    ∃ program : Program, last.code.programs[id]? = some program ∧
      program.Within Cell.Lasting := by
  induction run with
  | nil => cases member
  | @cons start next last part others number ids first rest ih =>
      rcases Machine.named_compile resolves named first with ⟨still, program, added, within⟩
      rcases List.mem_cons.mp member with here | behind
      · rcases Prod.mk.inj here with ⟨rfl, rfl⟩
        have own : part.Overlooks := overlooks part List.mem_cons_self rfl
        refine ⟨program, ?_, within own⟩
        rw [rest.others_eq, added]
        intro again
        have bounds := rest.fresh.2 id again
        have following := (Machine.compile_adds first).2.1
        omega
      · exact ih still behind fun part member => overlooks part (List.mem_cons_of_mem _ member)

namespace Effect

variable {σ : Type} {config : Config}

theorem named_new (disk : Disk) (config : Config) :
    (Effect.new disk config : Effect σ).machine.Named :=
  Machine.named_hosted

theorem names_freeAll (machine : Machine) (ids : List Nat) :
    (machine.freeAll ids).code.names = machine.code.names := by
  induction ids generalizing machine with
  | nil => rfl
  | cons id others ih => exact ih (machine.free id)

/-- Unloading forgets names and makes none. -/
theorem named_unloadCode {effect : Effect σ} (named : effect.machine.Named) :
    effect.unloadCode.machine.Named := by
  apply named.of_names
  · exact Nat.le_of_eq (congrArg Array.size (store_unloadCode effect)).symm
  · intro name cell found
    change (Std.HashMap.filter _ ((effect.machine.freeAll _).freeAll _).code.names)[name]? =
      some cell at found
    rw [names_freeAll, names_freeAll, Std.HashMap.getElem?_filter',
      Option.filter_eq_some_iff] at found
    exact found.1

theorem named_load {effect : Effect σ} (named : effect.machine.Named) (path : String)
    (ignoreImports : Bool) : (effect.load path ignoreImports).effect.machine.Named := by
  have emptied : effect.unload.machine.Named := named_unloadCode named
  rw [load]
  split
  · next script _ _ =>
      apply emptied.of_names
      · exact Nat.le_of_eq (sameShape_defaultSliders _ script.header).cells.symm
      · exact fun _ _ found => found
  · exact emptied

/-- A script without a block section ignores blocks if its source mentions none of the names
by which a cycle tells about itself. -/
theorem ignoresBlocks_compile {effect : Effect σ} (named : effect.machine.Named)
    {options : CompileOptions} (succeeded : (effect.compile options).result = .ok ())
    (overlooks : ∀ script, effect.rig.script? = some script → script.Overlooks options) :
    (effect.compile options).effect.IgnoresBlocks := by
  have emptied : effect.unloadCode.machine.Named := named_unloadCode named
  rw [compile] at succeeded ⊢
  split at succeeded
  · next script info known _ =>
      split at succeeded
      · next sections machine compiled =>
          let installed := (effect.unloadCode.withMachine machine).installCode sections
          rcases CompiledSections.compileAll_ok compiled with ⟨ids, run, programs⟩
          have prepared : (CompiledSections.prepare script effect.unloadCode.machine).Named :=
            emptied.of_names (Nat.le_refl _) fun _ _ found => found
          have within : ∀ kind ∈ [SectionKind.init, .slider, .sample],
              ∀ id ∈ sections.ofKind kind, (installed.programOf id).Within Cell.Lasting := by
            intro kind looked id member
            have entry := CompiledSections.mem_programs_of_mem_ofKind member
            rw [programs] at entry
            rcases run.program_within (SliderAliases.resolvesLasting info.aliases) prepared
              entry (fun part own same => (overlooks script known).2 part own (same ▸ looked)) with
              ⟨program, found, lasting⟩
            have same : installed.programOf id = program := by
              change machine.code.programs.getD id [] = program
              rw [Std.HashMap.getD_eq_getD_getElem?, found, Option.getD_some]
            rw [same]
            exact lasting
          refine ⟨fun other same => (overlooks other same).1, ?_⟩
          intro program member
          have single : ∀ kind, kind ≠ .gfx → kind ∈ [SectionKind.init, .slider, .sample] →
              program ∈ (installed.program? kind).toList → program.Within Cell.Lasting := by
            intro kind notDrawing looked found
            rw [Option.mem_toList, program?, programId?_installCode _ _ notDrawing,
              Option.map_eq_some_iff] at found
            rcases found with ⟨id, first, rfl⟩
            exact within kind looked id (List.mem_of_head? first)
          rw [List.mem_append, List.mem_append] at member
          rcases member with (init | slider) | sample
          · rw [initPrograms, initIds_installCode] at init
            rcases List.mem_map.mp init with ⟨id, own, rfl⟩
            exact within .init (by decide) id own
          · exact single .slider (by decide) (by decide) slider
          · exact single .sample (by decide) (by decide) sample
      · cases succeeded
  · cases succeeded

end Effect
end EffectHost

import EffectHost.Proofs.Effect.Calls
import EffectHost.Proofs.Effect.Sources

/-!
# Code that can be told from its text

Code without quoted texts whose names are all names of sliders links to the same program in
every machine.  Compiling a script of such code numbers its programs upwards from the next
free number.  So the programs of an effect can be told from the text of its script, without a
look into the machine, and with them what each step does.
-/

namespace EffectHost

open Code

namespace Code

mutual

/-- The linked expression, if the caller knows all names and there are no texts. -/
def Expr.linked? (resolve : String → Option Cell) : SourceExpr → Option (Expr Cell Nat)
  | .number value => some (.number value)
  | .text _ => none
  | .variable name => (resolve name).map .variable
  | .item base index =>
    (base.linked? resolve).bind fun base => (index.linked? resolve).map (.item base ·)
  | .negate operand => (operand.linked? resolve).map .negate
  | .binary op left right =>
    (left.linked? resolve).bind fun left => (right.linked? resolve).map (.binary op left ·)
  | .call function arguments => (linkedAll? resolve arguments).map (.call function)
  | .assign name value =>
    (resolve name).bind fun cell => (value.linked? resolve).map (.assign cell ·)
  | .assignItem base index value =>
    (base.linked? resolve).bind fun base => (index.linked? resolve).bind fun index =>
      (value.linked? resolve).map (.assignItem base index ·)
termination_by structural expression => expression

/-- The linked expressions, if the caller knows all names and there are no texts. -/
def linkedAll? (resolve : String → Option Cell) :
    List SourceExpr → Option (List (Expr Cell Nat))
  | [] => some []
  | first :: others =>
    (first.linked? resolve).bind fun first => (linkedAll? resolve others).map (first :: ·)
termination_by structural expressions => expressions

end

end Code

namespace Machine

/-- In a machine the names that are known link to their cells, and nothing becomes known. -/
def Recalls (machine : Machine) (known resolve : String → Option Cell) : Prop :=
  ∀ name cell, known name = some cell → machine.link resolve name = (cell, machine)

theorem recalls_resolve (machine : Machine) (resolve : String → Option Cell) :
    machine.Recalls resolve resolve := by
  intro name cell known
  rw [link, known]

variable {machine : Machine} {known resolve : String → Option Cell}

mutual

/-- Code whose names are known is linked without a change to the machine. -/
theorem linkExpr_of_linked? (recalls : machine.Recalls known resolve) :
    ∀ {expression : SourceExpr} {linked : Expr Cell Nat},
      expression.linked? known = some linked →
        linkExpr resolve expression machine = (linked, machine)
  | .number _, _, told => by
      cases told
      rfl
  | .text _, _, told => nomatch told
  | .variable name, _, told => by
      rcases Option.map_eq_some_iff.mp told with ⟨cell, found, rfl⟩
      rw [linkExpr, recalls name cell found]
  | .item _ _, _, told => by
      rcases Option.bind_eq_some_iff.mp told with ⟨base, first, told⟩
      rcases Option.map_eq_some_iff.mp told with ⟨index, second, rfl⟩
      rw [linkExpr, linkExpr_of_linked? recalls first, linkExpr_of_linked? recalls second]
  | .negate _, _, told => by
      rcases Option.map_eq_some_iff.mp told with ⟨operand, inner, rfl⟩
      rw [linkExpr, linkExpr_of_linked? recalls inner]
  | .binary _ _ _, _, told => by
      rcases Option.bind_eq_some_iff.mp told with ⟨left, first, told⟩
      rcases Option.map_eq_some_iff.mp told with ⟨right, second, rfl⟩
      rw [linkExpr, linkExpr_of_linked? recalls first, linkExpr_of_linked? recalls second]
  | .call _ _, _, told => by
      rcases Option.map_eq_some_iff.mp told with ⟨arguments, inner, rfl⟩
      rw [linkExpr, linkAll_of_linkedAll? recalls inner]
  | .assign name _, _, told => by
      rcases Option.bind_eq_some_iff.mp told with ⟨cell, found, told⟩
      rcases Option.map_eq_some_iff.mp told with ⟨value, inner, rfl⟩
      rw [linkExpr, recalls name cell found, linkExpr_of_linked? recalls inner]
  | .assignItem _ _ _, _, told => by
      rcases Option.bind_eq_some_iff.mp told with ⟨base, first, told⟩
      rcases Option.bind_eq_some_iff.mp told with ⟨index, second, told⟩
      rcases Option.map_eq_some_iff.mp told with ⟨value, third, rfl⟩
      rw [linkExpr, linkExpr_of_linked? recalls first, linkExpr_of_linked? recalls second,
        linkExpr_of_linked? recalls third]

theorem linkAll_of_linkedAll? (recalls : machine.Recalls known resolve) :
    ∀ {expressions : List SourceExpr} {linked : List (Expr Cell Nat)},
      linkedAll? known expressions = some linked →
        linkAll resolve expressions machine = (linked, machine)
  | [], _, told => by
      cases told
      rfl
  | _ :: _, _, told => by
      rcases Option.bind_eq_some_iff.mp told with ⟨first, head, told⟩
      rcases Option.map_eq_some_iff.mp told with ⟨others, tail, rfl⟩
      rw [linkAll, linkExpr_of_linked? recalls head, linkAll_of_linkedAll? recalls tail]

end

end Machine

/-- The program of a section, if it can be told from its text. -/
def Section.program? (resolve : String → Option Cell) (part : Section) : Option Program :=
  (statements? part.text).bind (linkedAll? resolve)

namespace CompilesTo

variable {resolve : String → Option Cell} {machine last : Machine} {parts : List Section}
  {ids : List Nat}

/-- A program that can be told from the text of its section is the one under its number, if
all machines on the way recall the names that it needs. -/
theorem program_of_text (run : CompilesTo resolve machine parts ids last)
    {known : String → Option Cell} {kept : Machine → Prop}
    (keeps : ∀ (before : Machine) (text : String), kept before →
      kept (before.compile text resolve).2)
    (recalls : ∀ before : Machine, kept before → before.Recalls known resolve)
    (start : kept machine) {position : Nat} {part : Section} {program : Program}
    (there : parts[position]? = some part) (told : part.program? known = some program) :
    last.code.programs.getD (machine.code.nextProgram + position) [] = program := by
  induction run generalizing position with
  | nil => cases there
  | @cons machine next _ first others id ids compiled rest ih =>
      rcases Machine.compile_adds compiled with ⟨number, following, _⟩
      cases position with
      | succ position =>
          have still := keeps machine first.text start
          rw [compiled] at still
          rw [← ih still there, following, number, Nat.add_right_comm, Nat.add_assoc]
      | zero =>
          cases there
          rcases Machine.compile_eq_ok compiled with ⟨statements, read, linked⟩
          rw [Section.program?, read] at told
          rw [Machine.linkAll_of_linkedAll? (recalls machine start) told] at linked
          have new : next.code.programs[id]? = some program := by
            have made := congrArg Prod.snd linked
            have numbered := congrArg Prod.fst linked
            dsimp only at made numbered
            rw [← made, ← numbered]
            exact Std.HashMap.getElem?_insert_self
          have unused : id ∉ ids := by
            intro again
            have bounds := rest.fresh.2 id again
            omega
          rw [Nat.add_zero, ← number, Std.HashMap.getD_eq_getD_getElem?,
            rest.others_eq id unused, new]
          rfl

end CompilesTo

namespace Effect

variable {σ : Type} {painter : Painter σ}

/-- From a number on, the programs are those of a table. -/
def Tells (effect : Effect σ) (base : Nat) (table : List Program) : Prop :=
  ∀ (position : Nat) (program : Program), table[position]? = some program →
    effect.programOf (base + position) = program

variable {base : Nat} {table : List Program}

theorem Tells.of_keepsCode {before after : Effect σ} (tells : before.Tells base table)
    (keeps : before.rig.KeepsCode after.rig) : after.Tells base table := by
  rw [Tells, programOf_of_keepsCode keeps]
  exact tells

theorem nextProgram_unloadCode (effect : Effect σ) :
    effect.unloadCode.rig.code.nextProgram = effect.rig.code.nextProgram := by
  change ((effect.machine.freeAll _).freeAll _).code.nextProgram = effect.machine.code.nextProgram
  rw [Machine.nextProgram_freeAll, Machine.nextProgram_freeAll]

end Effect

namespace LoadedScript

/-- What the names of a script denote, if they are names of sliders. -/
def resolve (script : LoadedScript) : String → Option Cell :=
  script.info.aliases.cell?

/-- All programs of the script can be told from its text. -/
def isClosed (script : LoadedScript) (options : CompileOptions) : Bool :=
  (script.sectionsToCompile options).all fun part => (part.program? script.resolve).isSome

/-- The programs that can be told from the text, in the order in which they are compiled. -/
def programs (script : LoadedScript) (options : CompileOptions) : List Program :=
  (script.sectionsToCompile options).map fun part => (part.program? script.resolve).getD []

end LoadedScript

namespace Effect

variable {σ : Type} {painter : Painter σ} {config : Config} {base : Nat} {table : List Program}

/-- All programs of the loaded script can be told from its text. -/
def isClosed (effect : Effect σ) (options : CompileOptions) : Bool :=
  effect.rig.script?.any (LoadedScript.isClosed · options)

/-- The programs of the loaded script, as far as its text tells them. -/
def programs (effect : Effect σ) (options : CompileOptions) : List Program :=
  (effect.rig.script?.map (LoadedScript.programs · options)).getD []

/-- Compiling a script makes the programs that can be told from its text, if all machines on
the way recall the names that they need. -/
theorem tells_compile_of_recalls {effect : Effect σ} (grounded : effect.Grounded config)
    {script : LoadedScript} (loaded : effect.rig.script? = some script)
    {options : CompileOptions} {known : String → Option Cell} {kept : Machine → Prop}
    (keeps : ∀ (before : Machine) (text : String), kept before →
      kept (before.compile text script.resolve).2)
    (recalls : ∀ before : Machine, kept before → before.Recalls known script.resolve)
    (start : kept (CompiledSections.prepare script effect.unloadCode.machine))
    (all : (script.sectionsToCompile options).all
      (fun part => (part.program? known).isSome) = true)
    (succeeded : (effect.compile options).result = .ok ()) :
    (effect.compile options).effect.Tells effect.rig.code.nextProgram
      ((script.sectionsToCompile options).map fun part => (part.program? known).getD []) := by
  have informed : effect.unloadCode.rig.info? = some script.info := by
    have tells := grounded.informed
    rwa [loaded] at tells
  have stillLoaded : effect.unloadCode.rig.script? = some script := loaded
  rw [compile, stillLoaded, informed] at succeeded ⊢
  dsimp only at succeeded ⊢
  split at succeeded
  · next sections machine compiled =>
      rcases CompiledSections.compileAll_ok compiled with ⟨ids, run, _⟩
      intro position program own
      rw [List.getElem?_map, Option.map_eq_some_iff] at own
      rcases own with ⟨part, there, rfl⟩
      have told := List.all_eq_true.mp all part (List.mem_of_getElem? there)
      rcases Option.isSome_iff_exists.mp told with ⟨program, tells⟩
      have number : effect.rig.code.nextProgram =
          (CompiledSections.prepare script effect.unloadCode.machine).code.nextProgram :=
        (nextProgram_unloadCode effect).symm
      rw [tells, Option.getD_some, number]
      exact run.program_of_text keeps recalls start there tells
  · cases succeeded

/-- Compiling a script whose programs can be told from its text makes these programs. -/
theorem tells_compile {effect : Effect σ} (grounded : effect.Grounded config)
    {options : CompileOptions} (closed : effect.isClosed options = true)
    (succeeded : (effect.compile options).result = .ok ()) :
    (effect.compile options).effect.Tells effect.rig.code.nextProgram
      (effect.programs options) := by
  rw [isClosed, Option.any_eq_true] at closed
  rcases closed with ⟨script, loaded, all⟩
  rw [programs, loaded, Option.map_some, Option.getD_some]
  have recalls (before : Machine) : True → before.Recalls script.resolve script.resolve :=
    fun _ => before.recalls_resolve script.resolve
  exact tells_compile_of_recalls grounded loaded (fun _ _ _ => trivial) recalls trivial all
    succeeded

/-- Do a step with the programs of a table. -/
def performFrom (effect : Effect σ) (base : Nat) (table : List Program) : Step → Effect σ
  | .run caller id => effect.run caller (table.getD (id - base) [])
  | step => effect.perform step

/-- The calls that code makes in a step with the programs of a table. -/
def callsFrom (effect : Effect σ) (base : Nat) (table : List Program) : Step → List CodeCall
  | .run caller id =>
    (Code.calls (effect.codeHost caller) (table.getD (id - base) [])
      (effect.store, effect.around)).map (CodeCall.mk caller)
  | _ => []

/-- Do steps in a row with the programs of a table, noting the calls. -/
def evaluate (effect : Effect σ) (base : Nat) (table : List Program) :
    List Step → List CodeCall × Effect σ
  | [] => ([], effect)
  | step :: others =>
    let rest := (effect.performFrom base table step).evaluate base table others
    (effect.callsFrom base table step ++ rest.1, rest.2)

/-- The programs of steps are in a table. -/
def Covers (base : Nat) (table : List Program) (steps : List Step) : Prop :=
  ∀ id ∈ Step.programs steps, base ≤ id ∧ id - base < table.length

instance (base : Nat) (table : List Program) (steps : List Step) :
    Decidable (Covers base table steps) :=
  inferInstanceAs (Decidable (∀ id ∈ Step.programs steps, base ≤ id ∧ id - base < table.length))

/-- Steps whose programs are in the table are done as the table says. -/
theorem evaluate_eq {effect : Effect σ} (tells : effect.Tells base table) {steps : List Step}
    (covers : Covers base table steps) :
    effect.evaluate base table steps = (effect.callsIn steps, effect.performAll steps) := by
  induction steps generalizing effect with
  | nil => rfl
  | cons step others ih =>
      have first : effect.performFrom base table step = effect.perform step ∧
          effect.callsFrom base table step = effect.callsOf step := by
        cases step with
        | run caller id =>
            rcases covers id List.mem_cons_self with ⟨above, inside⟩
            have own := tells (id - base) _ (List.getElem?_eq_getElem inside)
            rw [Nat.add_sub_cancel' above] at own
            have same : table.getD (id - base) [] = effect.programOf id := by
              rw [own, List.getD_eq_getElem?_getD, List.getElem?_eq_getElem inside]
              rfl
            rw [performFrom, perform, callsFrom, callsOf, same]
            exact ⟨rfl, rfl⟩
        | _ => exact ⟨rfl, rfl⟩
      have rest : Covers base table others := by
        intro id member
        apply covers id
        rw [programs_cons]
        exact List.mem_append_right _ member
      rw [evaluate, first.1, first.2,
        ih (tells.of_keepsCode (keepsCode_perform effect step)) rest]
      rfl

/-- Steps leave the programs as they are. -/
theorem Tells.evaluate {effect : Effect σ} (tells : effect.Tells base table)
    {steps : List Step} (covers : Covers base table steps) :
    (effect.evaluate base table steps).2.Tells base table := by
  rw [evaluate_eq tells covers]
  clear covers
  induction steps generalizing effect with
  | nil => exact tells
  | cons step others ih => exact ih (tells.of_keepsCode (keepsCode_perform effect step))

/-- Saving a state with all programs in the table. -/
theorem saveState_of_tells {effect : Effect σ} (tells : effect.Tells base table)
    (covers : Covers base table effect.saveSteps) :
    effect.saveState.2 = (effect.evaluate base table effect.saveSteps).2 := by
  rw [evaluate_eq tells covers, saveState_eq_performAll]

/-- A cycle with all programs in the table. -/
theorem process_of_tells {effect : Effect σ} (tells : effect.Tells base table)
    {inputs outputs : List Channel} {frames : Nat}
    (covers : Covers base table (effect.cycleSteps inputs outputs frames))
    (precision : Precision) :
    (effect.process precision inputs outputs frames).2 =
      (effect.evaluate base table (effect.cycleSteps inputs outputs frames)).2 := by
  rw [evaluate_eq tells covers, process_eq_performAll]

/-- A section is the program that the table has for its number. -/
theorem program?_of_tells {effect : Effect σ} (tells : effect.Tells base table)
    {kind : SectionKind} {position : Nat}
    (number : effect.programId? kind = some (base + position))
    (inside : position < table.length) :
    effect.program? kind = some (table.getD position []) := by
  have own : table[position]? = some (table.getD position []) := by
    rw [List.getD_eq_getElem?_getD, List.getElem?_eq_getElem inside, Option.getD_some]
  rw [program?, number, Option.map_some, tells position _ own]

/-- A state that is saved holds what the serializer holds before the last step. -/
theorem data_saveState_of_tells {effect : Effect σ} (compiled : effect.isCompiled = true)
    (informed : effect.hasInfo = true) (tells : effect.Tells base table)
    (covers : Covers base table effect.saveSteps.dropLast) :
    effect.saveState.1.map (·.data) =
      some (effect.evaluate base table
        effect.saveSteps.dropLast).2.around.files.serializer.stream.bytes := by
  have known : (effect.serialize .writing ByteArray.empty).2.hasInfo = true := by
    rw [hasInfo, (continues_serialize effect .writing ByteArray.empty).info]
    exact informed
  rw [evaluate_eq tells covers, saveSteps, if_pos compiled, ← runSerialize_eq_performAll,
    saveState, if_pos compiled]
  dsimp only
  rw [if_pos known]
  rfl

end Effect
end EffectHost

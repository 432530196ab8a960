import EffectHost.Proofs.Effect.ClosedCode
import EffectHost.Proofs.Effect.Lasting

/-!
# Code with the names of the host

The names of the host are registered wherever an effect has been led, and each of them
denotes the cell of its variable.  So code whose names are all names of sliders or of the host
can be told from its text as well.
-/

namespace EffectHost

open Code

/-- The cell of the variable of the host that has been given this name last. -/
def HostVariable.cellOfName? (name : String) : Option Cell :=
  (all.reverse.find? fun told => told.name == name).map cell

namespace Machine

/-- A table to which names were added one after another has the last cell of each. -/
theorem getElem?_foldl_insert (told : List HostVariable) (names : Std.HashMap String Cell)
    (name : String) :
    (told.foldl (fun names v => names.insert v.name v.cell) names)[name]? =
      ((told.reverse.find? fun told => told.name == name).map HostVariable.cell).or
        names[name]? := by
  induction told generalizing names with
  | nil => rfl
  | cons first others ih =>
      rw [List.foldl_cons, ih, Std.HashMap.getElem?_insert, List.reverse_cons,
        List.find?_append]
      cases found : others.reverse.find? fun told => told.name == name with
      | some later => rfl
      | none => by_cases own : first.name == name <;> simp [own]

/-- Wherever the names of the host are registered, they denote the cells of its variables. -/
theorem Registers.names_eq {machine : Machine} (registers : machine.Registers) {name : String}
    {cell : Cell} (known : HostVariable.cellOfName? name = some cell) :
    machine.code.names[name]? = some cell := by
  apply registers.names
  have listed := getElem?_foldl_insert HostVariable.all ∅ name
  rw [← HostVariable.cellOfName?, known] at listed
  exact listed

/-- What a name denotes as a name of a slider or of the host. -/
def knownName (resolve : String → Option Cell) (name : String) : Option Cell :=
  (resolve name).or (HostVariable.cellOfName? name)

/-- A machine in which the host has registered its names recalls them. -/
theorem Registers.recalls {machine : Machine} (registers : machine.Registers)
    (resolve : String → Option Cell) : machine.Recalls (knownName resolve) resolve := by
  intro name cell known
  rw [knownName] at known
  rw [link]
  cases resolved : resolve name with
  | some own =>
      rw [resolved] at known
      cases known
      rfl
  | none =>
      rw [resolved] at known
      rw [cellOf, registers.names_eq known]

end Machine

/-- Code that can be read compiles to the program that linking its statements gives. -/
theorem Machine.compile_of_statements? {source : String} {statements : List SourceExpr}
    (read : statements? source = some statements) (machine : Machine)
    (resolve : String → Option Cell) :
    let linked := linkAll resolve statements machine
    let added := linked.2.addProgram linked.1
    machine.compile source resolve = (.ok added.1, added.2) := by
  rw [statements?] at read
  rw [compile]
  split at read
  · next tokens scanned =>
      rw [scanned]
      dsimp only
      cases parsed : program tokens with
      | ok found =>
          rw [parsed] at read
          cases read
          rfl
      | error stop =>
          rw [parsed] at read
          cases read
  · cases read

/-- Code whose names are known is compiled without a look at the names of the machine. -/
theorem Machine.compile_of_program? {machine : Machine} {known resolve : String → Option Cell}
    (recalls : machine.Recalls known resolve) {part : Section} {program : Program}
    (told : part.program? known = some program) :
    machine.compile part.text resolve =
      (.ok (machine.addProgram program).1, (machine.addProgram program).2) := by
  rcases Option.bind_eq_some_iff.mp told with ⟨statements, read, linked⟩
  rw [Machine.compile_of_statements? read, Machine.linkAll_of_linkedAll? recalls linked]

namespace CompiledSections

/-- Sections whose names are all names of sliders or of the host are compiled as if the names
of the host were told beforehand. -/
theorem compileAll_knownName {resolve : String → Option Cell} {parts : List Section}
    (told : parts.all
      (fun part => (part.program? (Machine.knownName resolve)).isSome) = true)
    (done : CompiledSections) {machine : Machine} (registers : machine.Registers) :
    compileAll resolve parts done machine =
      compileAll (Machine.knownName resolve) parts done machine := by
  induction parts generalizing done machine with
  | nil => rfl
  | cons part others ih =>
      rw [List.all_cons, Bool.and_eq_true] at told
      rcases Option.isSome_iff_exists.mp told.1 with ⟨program, tells⟩
      have compiled := Machine.compile_of_program? (registers.recalls resolve) tells
      have same := Machine.compile_of_program? (machine.recalls_resolve _) tells
      have after := registers.of_keepsNames
        (Machine.keepsNames_keptByCompiling.compile machine part.text resolve)
      rw [compiled] at after
      rw [compileAll, compileAll, compiled, same]
      exact ih told.2 _ after

end CompiledSections

namespace Effect

variable {σ : Type} {painter : Painter σ} {config : Config}

/-- All programs of the loaded script can be told from its text and the names of the host. -/
def isKnown (effect : Effect σ) (options : CompileOptions) : Bool :=
  effect.rig.script?.any fun script =>
    (script.sectionsToCompile options).all fun part =>
      (part.program? (Machine.knownName script.resolve)).isSome

/-- The programs of the loaded script, as far as they can be told. -/
def knownPrograms (effect : Effect σ) (options : CompileOptions) : List Program :=
  (effect.rig.script?.map fun script =>
    (script.sectionsToCompile options).map fun part =>
      (part.program? (Machine.knownName script.resolve)).getD []).getD []

/-- Compile the loaded script with the names of the host told beforehand. -/
def compileKnown (effect : Effect σ) (options : CompileOptions) : Attempt σ :=
  let emptied := effect.unloadCode
  match emptied.rig.script? with
  | some script =>
    match CompiledSections.compile (Machine.knownName script.resolve) script options
        emptied.machine with
    | (.ok sections, machine) => ⟨(emptied.withMachine machine).installCode sections, .ok (), []⟩
    | (.error failure, machine) =>
      ⟨emptied.withMachine machine, .error failure, [⟨.error, failure.message⟩]⟩
  | none => ⟨emptied, .error nothingLoaded, [⟨.error, nothingLoaded.message⟩]⟩

/-- A machine that is prepared for a script of an effect has the names of the host. -/
theorem registers_prepare {effect : Effect σ} (reached : Reached painter config effect)
    (script : LoadedScript) :
    (CompiledSections.prepare script effect.unloadCode.machine).Registers :=
  have registers := registers_unloadCode reached.lasting.registers
  ⟨registers.names, registers.registered⟩

/-- Telling the names of the host beforehand makes no difference. -/
theorem compile_eq_compileKnown {effect : Effect σ} (reached : Reached painter config effect)
    {options : CompileOptions} (known : effect.isKnown options = true) :
    effect.compile options = effect.compileKnown options := by
  rw [isKnown, Option.any_eq_true] at known
  rcases known with ⟨script, loaded, all⟩
  have informed : effect.unloadCode.rig.info? = some script.info := by
    have tells := reached.grounded.informed
    rwa [loaded] at tells
  have stillLoaded : effect.unloadCode.rig.script? = some script := loaded
  rw [compile, compileKnown, stillLoaded, informed]
  dsimp only
  rw [CompiledSections.compile, CompiledSections.compile,
    ← CompiledSections.compileAll_knownName all {} (registers_prepare reached script)]
  rfl

/-- Compiling a script whose programs can be told makes these programs. -/
theorem tells_compile_known {effect : Effect σ} (reached : Reached painter config effect)
    {options : CompileOptions} (known : effect.isKnown options = true)
    (succeeded : (effect.compile options).result = .ok ()) :
    (effect.compile options).effect.Tells effect.rig.code.nextProgram
      (effect.knownPrograms options) := by
  rw [isKnown, Option.any_eq_true] at known
  rcases known with ⟨script, loaded, all⟩
  rw [knownPrograms, loaded, Option.map_some, Option.getD_some]
  exact tells_compile_of_recalls reached.grounded loaded
    (fun before text names =>
      names.of_keepsNames (Machine.keepsNames_keptByCompiling.compile before text _))
    (fun _ names => names.recalls script.resolve) (registers_prepare reached script) all
    succeeded

/-- The effect once it has loaded and compiled the script at a path and played a first cycle,
with the programs that the text of the script tells. -/
def playKnown (effect : Effect σ) (path : String) (inputs outputs : List Channel)
    (frames : Nat) : Effect σ :=
  let loaded := (effect.load path false).effect
  let compiled := (loaded.compileKnown {}).effect
  (compiled.evaluate loaded.rig.code.nextProgram (loaded.knownPrograms {})
    (compiled.cycleSteps inputs outputs frames)).2

/-- The text of the script tells all programs that a first cycle needs. -/
def canPlayKnown (effect : Effect σ) (path : String) (inputs outputs : List Channel)
    (frames : Nat) : Bool :=
  let loaded := (effect.load path false).effect
  let compiled := loaded.compileKnown {}
  loaded.isKnown {} && compiled.result.isOk &&
    decide (Covers loaded.rig.code.nextProgram (loaded.knownPrograms {})
      (compiled.effect.cycleSteps inputs outputs frames))

/-- The text of the script tells what playing it does. -/
theorem after_play_known {effect : Effect σ} (reached : Reached painter config effect)
    {path : String} {inputs outputs : List Channel} {frames : Nat}
    (can : effect.canPlayKnown path inputs outputs frames = true) (precision : Precision) :
    effect.after painter [.load path false, .compile {},
      .cycle (.process precision inputs outputs frames)] =
        effect.playKnown path inputs outputs frames := by
  let loaded := (effect.load path false).effect
  rw [canPlayKnown, Bool.and_eq_true, Bool.and_eq_true, decide_eq_true_eq] at can
  rcases can with ⟨⟨known, succeeded⟩, covers⟩
  have same : loaded.compile {} = loaded.compileKnown {} :=
    compile_eq_compileKnown (reached.load path false) known
  have tells : (loaded.compileKnown {}).effect.Tells loaded.rig.code.nextProgram
      (loaded.knownPrograms {}) := by
    have made := tells_compile_known (reached.load path false) known
    rw [same] at made
    exact made (result_of_isOk succeeded)
  rw [playKnown, ← process_of_tells tells covers precision, ← same]
  rfl

end Effect
end EffectHost

import EffectHost.Proofs.Effect.HostNames
import EffectHost.Proofs.Effect.IdleSerializer
import EffectHost.Proofs.Effect.Lasting
import EffectHost.Proofs.Effect.Lifecycle
import EffectHost.Proofs.Effect.SliderValues
import EffectHost.Proofs.Effect.TwinScripts

/-!
# What a script leaves to the next one

Loading and compiling a script replaces all that an earlier one has left, but for what the
machine keeps for the host: the values of the host's variables, the long-lived strings and
the number of the next quoted text.  Two effects that agree in that, in what the host has
set, and in the events and notifications that wait, become twins as soon as both have loaded
and compiled the same script.
-/

namespace EffectHost

/-- Every cell in front of those of scripts is that of a variable of the host. -/
theorem HostVariable.exists_cell {cell : Cell} (front : cell.index < all.length) :
    ∃ name : HostVariable, name.cell = cell := by
  have listed : all.map HostVariable.cell = (List.range all.length).map Cell.mk := by
    decide +kernel
  have own := congrArg (fun cells : List Cell => cells[cell.index]?) listed
  rw [List.getElem?_map, List.getElem?_map, List.getElem?_range front,
    List.getElem?_eq_getElem front] at own
  exact ⟨all[cell.index], Option.some.inj own⟩

namespace Rig

variable {σ : Type}

/-- Two rigs agree in what the host sets from time to time. -/
structure SameSettings (one two : Rig σ) : Prop where
  disk : one.disk = two.disk
  blockSize : one.blockSize = two.blockSize
  sampleRate : one.sampleRate = two.sampleRate
  time : one.time = two.time

namespace SameSettings

theorem refl (rig : Rig σ) : SameSettings rig rig :=
  ⟨rfl, rfl, rfl, rfl⟩

theorem symm {one two : Rig σ} (same : SameSettings one two) : SameSettings two one :=
  ⟨same.disk.symm, same.blockSize.symm, same.sampleRate.symm, same.time.symm⟩

theorem trans {first second third : Rig σ} (left : SameSettings first second)
    (right : SameSettings second third) : SameSettings first third :=
  ⟨left.disk.trans right.disk, left.blockSize.trans right.blockSize,
    left.sampleRate.trans right.sampleRate, left.time.trans right.time⟩

end SameSettings
end Rig

namespace Effect

variable {σ : Type} {painter : Painter σ} {config : Config}

/-! ## Settings -/

theorem sameSettings_load (effect : Effect σ) (path : String) (ignoreImports : Bool) :
    effect.rig.SameSettings (effect.load path ignoreImports).effect.rig := by
  rw [load]
  split <;> exact ⟨rfl, rfl, rfl, rfl⟩

theorem sameSettings_compile (effect : Effect σ) (options : CompileOptions) :
    effect.rig.SameSettings (effect.compile options).effect.rig := by
  rw [compile]
  split
  · split <;> exact ⟨rfl, rfl, rfl, rfl⟩
  · exact ⟨rfl, rfl, rfl, rfl⟩

/-- What the host has set stays while code runs. -/
theorem sameSettings_performAll (effect : Effect σ) (steps : List Step) :
    effect.rig.SameSettings (effect.performAll steps).rig := by
  induction steps generalizing effect with
  | nil => exact .refl effect.rig
  | cons step others ih =>
      have first : effect.rig.SameSettings (effect.perform step).rig := by
        cases step with
        | startInit =>
            rw [perform, rig_startInit]
            exact .refl effect.rig
        | _ => exact ⟨rfl, rfl, rfl, rfl⟩
      exact first.trans (ih _)

/-- What the host has set stays when a script is loaded, compiled and played. -/
theorem sameSettings_play (effect : Effect σ) (path : String) (options : CompileOptions)
    (precision : Precision) (inputs outputs : List Channel) (frames : Nat) :
    effect.rig.SameSettings (effect.after painter [.load path false, .compile options,
      .cycle (.process precision inputs outputs frames)]).rig := by
  have loaded := sameSettings_load effect path false
  have compiled := sameSettings_compile (effect.load path false).effect options
  have played := sameSettings_performAll ((effect.load path false).effect.compile options).effect
    (((effect.load path false).effect.compile options).effect.cycleSteps inputs outputs frames)
  rw [← process_eq_performAll _ precision] at played
  exact (loaded.trans compiled).trans played

/-! ## What remains -/

/-- No trigger of the host and no event waits. -/
structure Quiet (effect : Effect σ) : Prop where
  triggers : effect.rig.pending.triggers = Mask.empty
  input : effect.around.input.events = []
  output : effect.around.output.events = []

/-- Two effects agree in all that loading a script with some header does not replace. -/
structure Level (painter : Painter σ) (header : Header) (one two : Effect σ) : Prop where
  settings : one.rig.SameSettings two.rig
  surface : one.rig.drawing.surface?.map painter.reset =
    two.rig.drawing.surface?.map painter.reset
  wantsRetina : one.rig.drawing.wantsRetina = two.rig.drawing.wantsRetina
  /-- The script sets the sliders that it declares. -/
  values : ∀ name : HostVariable, ¬ header.Declares name.cell →
    one.store.read name = two.store.read name
  nextLiteral : one.store.strings.nextLiteral = two.store.strings.nextLiteral
  texts : ∀ key : Nat, userStrings ≤ key →
    one.store.strings.texts[key]? = two.store.strings.texts[key]?
  changed : one.around.masks.changed = two.around.masks.changed
  automated : one.around.masks.automated = two.around.masks.automated

/-- The effect with another size of its memory. -/
def withMemoryLimit (effect : Effect σ) (limit : Nat) : Effect σ :=
  { effect with
    store := { effect.store with memory := { effect.store.memory with limit := limit } } }

/-- What is given up does not depend on the store. -/
theorem freeAll_withStore (machine : Machine) (store : Store) (ids : List Nat) :
    ({ machine with store := store } : Machine).freeAll ids =
      { machine.freeAll ids with store := store } := by
  induction ids generalizing machine with
  | nil => rfl
  | cons id others ih => exact ih (machine.free id)

/-- The store once the memory and the strings of a script are forgotten. -/
def clearedStore (store : Store) : Store :=
  { store with memory := store.memory.clear, strings := store.strings.forgetUser }

theorem unloadCode_store (effect : Effect σ) :
    effect.unloadCode.store = clearedStore effect.store := by
  change ((effect.machine.freeAll effect.rig.drawing.program?.toList).freeAll
    (effect.rig.sections?.getD {}).ids).reset.store = _
  simp only [Machine.reset, Machine.store_freeAll]
  rfl

theorem unloadCode_withMemoryLimit (effect : Effect σ) (limit : Nat) :
    (effect.withMemoryLimit limit).unloadCode = effect.unloadCode.withMemoryLimit limit := by
  have freed : ((effect.withMemoryLimit limit).machine.freeAll
        effect.rig.drawing.program?.toList).freeAll (effect.rig.sections?.getD {}).ids =
      { (effect.machine.freeAll effect.rig.drawing.program?.toList).freeAll
          (effect.rig.sections?.getD {}).ids with
        store := (effect.withMemoryLimit limit).store } := by
    rw [← freeAll_withStore, ← freeAll_withStore]
    rfl
  have rig : (effect.withMemoryLimit limit).unloadCode.rig = effect.unloadCode.rig :=
    congrArg (fun machine : Machine =>
      { effect.unloadCode.rig with code := machine.reset.code }) freed
  have store : (effect.withMemoryLimit limit).unloadCode.store =
      (effect.unloadCode.withMemoryLimit limit).store := by
    rw [unloadCode_store]
    simp only [withMemoryLimit, unloadCode_store, clearedStore, Memory.clear]
  exact congrArg₂ (fun store rig => Effect.mk store effect.around rig) store rig

/-- A loaded script brings the size of the memory with it when it is compiled. -/
theorem compile_withMemoryLimit {effect : Effect σ} {script : LoadedScript}
    {info : ScriptInfo} (loaded : effect.rig.script? = some script)
    (informed : effect.rig.info? = some info) (limit : Nat) (options : CompileOptions) :
    (effect.withMemoryLimit limit).compile options = effect.compile options := by
  have known : effect.unloadCode.rig.script? = some script := loaded
  have knownToo : effect.unloadCode.rig.info? = some info := informed
  have prepared : CompiledSections.prepare script
        (effect.unloadCode.withMemoryLimit limit).machine =
      CompiledSections.prepare script effect.unloadCode.machine := rfl
  rw [compile, compile, unloadCode_withMemoryLimit]
  simp only [withMemoryLimit, known, knownToo] at prepared ⊢
  rw [CompiledSections.compile, CompiledSections.compile, prepared]
  rfl

/-! ## Loading -/

/-- The store of an effect that has loaded a script with some header. -/
def loadedStore (store : Store) (header : Header) : Store :=
  defaultSliders (clearedStore store) header

theorem size_loadedStore (store : Store) (header : Header) :
    (loadedStore store header).cells.size = store.cells.size :=
  (sameShape_defaultSliders _ header).cells

theorem memory_loadedStore (store : Store) (header : Header) :
    (loadedStore store header).memory = store.memory.clear :=
  (defaultSliders_keeps (clearedStore store) header).1

theorem strings_loadedStore (store : Store) (header : Header) :
    (loadedStore store header).strings = store.strings.forgetUser :=
  (defaultSliders_keeps (clearedStore store) header).2

/-- The variables of the host are the same once the declared sliders have their defaults. -/
theorem read_loadedStore {one two : Effect σ} {header : Header}
    (level : Level painter header one two) (hosted : one.store.Hosted)
    (hostedToo : two.store.Hosted) (name : HostVariable) :
    (loadedStore one.store header).read name = (loadedStore two.store header).read name := by
  rw [loadedStore, loadedStore]
  by_cases declares : header.Declares name.cell
  · rcases declares with ⟨slot, declared, own⟩
    have same := HostVariable.cell_injective own
    subst same
    have cleared : (clearedStore one.store).Hosted := hosted
    have clearedToo : (clearedStore two.store).Hosted := hostedToo
    rw [read_defaultSliders cleared declared, read_defaultSliders clearedToo declared]
  · rw [Store.read, Store.read, get_defaultSliders declares, get_defaultSliders declares]
    exact level.values name declares

/-- What has been loaded hides all that was different. -/
theorem twins_loadedStore {one two : Effect σ} {header : Header}
    (level : Level painter header one two) (hosted : one.store.Hosted)
    (hostedToo : two.store.Hosted) {first second : Store}
    (loaded : first = loadedStore one.store header)
    (loadedToo : second = loadedStore two.store header) :
    Store.Twins ⟨one.store.cells.size, two.store.cells.size, hosted, hostedToo⟩
      { first with memory := { first.memory with limit := 0 } }
      { second with memory := { second.memory with limit := 0 } } := by
  have values (name : HostVariable) : first.read name = second.read name := by
    rw [loaded, loadedToo]
    exact read_loadedStore level hosted hostedToo name
  have size : first.cells.size = one.store.cells.size := by
    rw [loaded]
    exact size_loadedStore one.store header
  have sizeToo : second.cells.size = two.store.cells.size := by
    rw [loadedToo]
    exact size_loadedStore two.store header
  have memory : first.memory.slots = second.memory.slots := by
    rw [loaded, loadedToo, memory_loadedStore, memory_loadedStore]
    rfl
  have strings : first.strings.Same second.strings := by
    rw [loaded, loadedToo, strings_loadedStore, strings_loadedStore]
    exact Strings.same_forgetUser level.texts level.nextLiteral
  refine ⟨Nat.le_of_eq size.symm, ?_, ?_, ?_, strings⟩
  · dsimp only
    omega
  · rintro cell (front | behind)
    · rw [CellShift.move_of_hosted front]
      rcases HostVariable.exists_cell front with ⟨name, rfl⟩
      exact values name
    · -- There are no other cells yet.
      rw [CellShift.move_of_le behind]
      dsimp only at behind
      simp only [Store.get, Array.getD_eq_getD_getElem?]
      rw [Array.getElem?_eq_none (by omega), Array.getElem?_eq_none (by omega)]
  · exact congrArg (Memory.mk 0) memory

/-- Effects that hold no events have the same logs. -/
theorem logs_of_quiet {one two : Effect σ} (lasting : one.Lasting config)
    (lastingToo : two.Lasting config) (quiet : one.Quiet) (quietToo : two.Quiet) :
    one.around.input = two.around.input ∧ one.around.output = two.around.output := by
  rw [MidiLog.eq_new_of_leadsTo lasting.input quiet.input,
    MidiLog.eq_new_of_leadsTo lastingToo.input quietToo.input,
    MidiLog.eq_new_of_leadsTo lasting.output quiet.output,
    MidiLog.eq_new_of_leadsTo lastingToo.output quietToo.output]
  exact ⟨rfl, rfl⟩

theorem store_install (effect : Effect σ) (script : LoadedScript) :
    (effect.unload.install script).store = loadedStore effect.store script.header :=
  congrArg (defaultSliders · script.header) (unloadCode_store effect)

/-- Taking a script makes twins of level effects, the size of the memory apart. -/
theorem twins_install {one two : Effect σ} (reached : Reached painter config one)
    (reachedToo : Reached painter config two) (quiet : one.Quiet) (quietToo : two.Quiet)
    (idle : one.rig.drawing.isBusy = two.rig.drawing.isBusy) {script : LoadedScript}
    (level : Level painter script.header one two) :
    ∃ shift, Twins painter shift ((one.unload.install script).withMemoryLimit 0)
      ((two.unload.install script).withMemoryLimit 0) := by
  have lasting := reached.lasting
  have lastingToo := reachedToo.lasting
  have hosted := reached.grounded.hosted
  have hostedToo := reachedToo.grounded.hosted
  rcases logs_of_quiet lasting lastingToo quiet quietToo with ⟨input, output⟩
  let shift : CellShift := ⟨one.store.cells.size, two.store.cells.size, hosted, hostedToo⟩
  have store : Store.Twins shift ((one.unload.install script).withMemoryLimit 0).store
      ((two.unload.install script).withMemoryLimit 0).store :=
    twins_loadedStore level hosted hostedToo (store_install one script)
      (store_install two script)
  have masks : (one.unload.install script).around.masks =
      (two.unload.install script).around.masks :=
    congrArg₂ (SliderMasks.mk (SliderMasks.initiallyVisible script.header)) level.changed
      level.automated
  have files : one.around.files.clear = two.around.files.clear :=
    congrArg (FileTable.mk · []) (reached.idle.trans reachedToo.idle.symm)
  have codes := Machine.twins_code_reset shift (registers_released lasting.registers)
    (registers_released lastingToo.registers)
  refine ⟨shift, store, ⟨masks, files, input, output, nofun⟩, ?_⟩
  exact {
    disk := level.settings.disk
    config := lasting.configured.trans lastingToo.configured.symm
    script := rfl
    info := rfl
    blockSize := level.settings.blockSize
    sampleRate := level.settings.sampleRate
    time := level.settings.time
    held := HeldCode.twins_of_none codes
    drawing := ⟨level.surface, rfl, level.wantsRetina, idle, nofun, nofun⟩
    pending := ⟨rfl, rfl, rfl, quiet.triggers.trans quietToo.triggers.symm, nofun⟩ }

/-- Loading and compiling a script makes twins of level effects. -/
theorem twins_load_compile {one two : Effect σ} (reached : Reached painter config one)
    (reachedToo : Reached painter config two) (quiet : one.Quiet) (quietToo : two.Quiet)
    (idle : one.rig.drawing.isBusy = two.rig.drawing.isBusy) {path : String}
    {ignoreImports : Bool} (loads : (one.load path ignoreImports).result = .ok ())
    (level : Level painter (one.load path ignoreImports).effect.header one two)
    (options : CompileOptions) :
    let start : List (HostAction σ) := [.load path ignoreImports, .compile options]
    one.answers painter start = two.answers painter start ∧
      ∃ shift, Twins painter shift (one.after painter start) (two.after painter start) := by
  have disk : one.unload.rig.disk = two.unload.rig.disk := level.settings.disk
  have configured : one.unload.rig.config = two.unload.rig.config :=
    reached.lasting.configured.trans reachedToo.lasting.configured.symm
  simp only [answers, answer, act, after, List.foldl_cons, List.foldl_nil]
  rw [load] at loads level
  rw [load, load, ← disk, ← configured]
  split at loads
  · next script reports found =>
      rw [found] at level
      rcases twins_install reached reachedToo quiet quietToo idle level with ⟨shift, twins⟩
      have same := twins.compile options
      rw [compile_withMemoryLimit rfl rfl, compile_withMemoryLimit rfl rfl] at same
      rcases same with ⟨result, reports, compiled⟩
      dsimp only
      rw [result, reports]
      exact ⟨rfl, shift, compiled⟩
  · cases loads

/-- What an earlier script has left to an effect is not found by the next one, nor by the
host.  Two effects, of which both may have run any scripts and one may never have had any,
load and compile the same script.  If no trigger and no event waits, and they agree in what
the host has set, in the notifications that it has not fetched, in the values of the host's
variables except the sliders that the script declares, in the long-lived strings and in the
number of the next quoted text, then whatever the host does from then on gives the same
answers, and it sees the same. -/
theorem earlier_script_leaves_no_trace (planned : painter.Planned) (config : Config)
    (disk other : Disk) (before beforeToo : List (HostAction σ)) {path : String}
    {ignoreImports : Bool} (options : CompileOptions) (actions : List (HostAction σ)) :
    let one := (Effect.new disk config).after painter before
    let two := (Effect.new other config).after painter beforeToo
    let loaded := one.load path ignoreImports
    let run := .load path ignoreImports :: .compile options :: actions
    loaded.result = .ok () → one.Quiet → two.Quiet →
      Level painter loaded.effect.header one two →
      one.answers painter run = two.answers painter run ∧
        (one.after painter run).view = (two.after painter run).view := by
  intro one two loaded run loads quiet quietToo level
  have confined := planned.confined
  have free (start : Disk) (history : List (HostAction σ)) :
      ((Effect.new start config).after painter history).rig.drawing.isBusy = false :=
    (sound_after confined (sound_new start config) history).idle
  rcases twins_load_compile (reached_after confined disk config before)
    (reached_after confined other config beforeToo) quiet quietToo
    ((free disk before).trans (free other beforeToo).symm) loads level options with
    ⟨start, shift, twins⟩
  rcases twins.after planned actions with ⟨rest, last⟩
  have parts : run = [.load path ignoreImports, .compile options] ++ actions := rfl
  refine ⟨?_, last.view⟩
  rw [parts, answers_append, answers_append, start, rest]

/-- One script has counted up the slider that both scripts declare.  The next one does all that
it does in an effect that has never had another. -/
theorem earlier_script_leaves_no_trace_slider :
    let painter : Painter Unit :=
      { size := fun _ => (4, 3), scale := fun _ => 1.0, reset := fun surface => surface
        call := fun _ _ effect => (0.0, effect)
        takeDirty := fun surface => (true, surface) }
    let first := "desc:A\nslider1:5<0,10>Size\n@block\nslider1 = slider1 + 1;\n"
    let second := "desc:B\nslider1:2<0,10>Size\n@block\nslider2 = slider1;\n"
    let disk := (Disk.empty.addFile ["a"] first.toUTF8).addFile ["b"] second.toUTF8
    let play (path : String) : List (HostAction Unit) :=
      [.load path false, .compile {}, .cycle (.process .double [] [] 128)]
    let fresh : Effect Unit := Effect.new disk {}
    let used := fresh.after painter (play "/a")
    used.store.read (.slider 0) = 6.0 ∧ fresh.store.read (.slider 0) = 0.0 ∧
      used.answers painter (play "/b") = fresh.answers painter (play "/b") ∧
      (used.after painter (play "/b")).view = (fresh.after painter (play "/b")).view := by
  intro painter first second disk play fresh used
  let played := fresh.playKnown "/a" [] [] 128
  have same : used = played := after_play_known (.new disk) (by decide +kernel) .double
  have settings : fresh.rig.SameSettings used.rig :=
    sameSettings_play fresh "/a" {} .double [] [] 128
  have planned : painter.Planned := ⟨fun _ _ => .done 0.0, fun _ _ _ => rfl⟩
  rw [same] at settings ⊢
  obtain ⟨loads, declared, counted, start, values, surface, retina, literal, texts, changed,
      automated, triggers, input, output⟩ :
      (played.load "/b" false).result.isOk = true ∧
      ((played.load "/b" false).effect.header.sliders.get 0).declared = true ∧
      played.store.read (.slider 0) = 6.0 ∧ fresh.store.read (.slider 0) = 0.0 ∧
      (∀ name ∈ HostVariable.all,
        name = .slider 0 ∨ played.store.read name = fresh.store.read name) ∧
      played.rig.drawing.surface? = fresh.rig.drawing.surface? ∧
      played.rig.drawing.wantsRetina = fresh.rig.drawing.wantsRetina ∧
      played.store.strings.nextLiteral = fresh.store.strings.nextLiteral ∧
      played.store.strings.texts.isEmpty = true ∧
      played.around.masks.changed = fresh.around.masks.changed ∧
      played.around.masks.automated = fresh.around.masks.automated ∧
      played.rig.pending.triggers = Mask.empty ∧
      played.around.input.events.isEmpty = true ∧
      played.around.output.events.isEmpty = true := by
    decide +kernel
  have quiet : played.Quiet :=
    ⟨triggers, List.isEmpty_iff.mp input, List.isEmpty_iff.mp output⟩
  have quietToo : fresh.Quiet :=
    ⟨rfl, List.isEmpty_iff.mp (by decide +kernel), List.isEmpty_iff.mp (by decide +kernel)⟩
  have level : Level painter (played.load "/b" false).effect.header played fresh := by
    refine ⟨settings.symm, congrArg _ surface, retina, ?_, literal, ?_, changed, automated⟩
    · intro name undeclared
      have listed := List.mem_of_getElem? (HostVariable.all_getElem?_index name)
      exact (values name listed).resolve_left fun own =>
        undeclared ⟨0, declared, by rw [own]⟩
    · intro key _
      rw [Std.HashMap.getElem?_of_isEmpty texts]
      exact Std.HashMap.getElem?_empty.symm
  rw [← same] at loads counted quiet level ⊢
  have alike := earlier_script_leaves_no_trace planned {} disk disk (play "/a") [] {}
    [.cycle (.process .double [] [] 128)] (result_of_isOk loads) quiet quietToo level
  exact ⟨counted, start, alike⟩

/-- A script that addresses buses itself leaves them to the next one: what that sends without
a word about buses goes to the bus of the first script, and not to bus zero. -/
theorem earlier_script_leaves_its_bus :
    let painter : Painter Unit :=
      { size := fun _ => (4, 3), scale := fun _ => 1.0, reset := fun surface => surface
        call := fun _ _ effect => (0.0, effect)
        takeDirty := fun surface => (true, surface) }
    let first := "desc:A\n@init\next_midi_bus = 1;\nmidi_bus = 3;\n"
    let second := "desc:B\n@block\nmidisend(0, 144, 60);\n"
    let disk := (Disk.empty.addFile ["a"] first.toUTF8).addFile ["b"] second.toUTF8
    let play (path : String) : List (HostAction Unit) :=
      [.load path false, .compile {}, .cycle (.process .double [] [] 1)]
    let fresh : Effect Unit := Effect.new disk {}
    let used := fresh.after painter (play "/a")
    used.Quiet ∧
      (used.after painter (play "/b")).receiveMidi.1.map MidiEvent.bus = some 3 ∧
      (fresh.after painter (play "/b")).receiveMidi.1.map MidiEvent.bus = some 0 := by
  intro painter first second disk play fresh used
  have begun : Reached painter {} fresh := Reached.new disk
  let played := fresh.playKnown "/a" [] [] 1
  have same : used = played := after_play_known begun (by decide +kernel) .double
  have reached : Reached painter {} played := by
    rw [← same]
    exact ((begun.load "/a" false).compile {}).moment (.cycle (.process .double [] [] 1))
  obtain ⟨triggers, input, output, can, canToo, third, zeroth⟩ :
      played.rig.pending.triggers = Mask.empty ∧
      played.around.input.events.isEmpty = true ∧
      played.around.output.events.isEmpty = true ∧
      played.canPlayKnown "/b" [] [] 1 = true ∧ fresh.canPlayKnown "/b" [] [] 1 = true ∧
      (played.playKnown "/b" [] [] 1).receiveMidi.1.map MidiEvent.bus = some 3 ∧
      (fresh.playKnown "/b" [] [] 1).receiveMidi.1.map MidiEvent.bus = some 0 := by
    decide +kernel
  rw [same, after_play_known reached can, after_play_known begun canToo]
  exact ⟨⟨triggers, List.isEmpty_iff.mp input, List.isEmpty_iff.mp output⟩, third, zeroth⟩

end Effect
end EffectHost

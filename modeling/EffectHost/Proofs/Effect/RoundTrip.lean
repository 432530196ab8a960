import EffectHost.Proofs.Effect.DueWork
import EffectHost.Proofs.Effect.SliderValues
import EffectHost.Proofs.Effect.Sources
import EffectHost.Proofs.Host.SavedItems

/-!
# A saved state comes back

A state that was saved and is restored at once is saved a second time as it was.  Restoring
puts the sliders back where they were, and what the serialize section reads is what it
wrote, rounded to single precision, which is all that is written of it again.  Only where
the section restores a declared slider itself can the rounding be seen: the state has the
exact value of the slider, and the restored slider the rounded one.
-/

namespace EffectHost

open Bytes Number

namespace Effect

variable {σ : Type} {painter : Painter σ} {config : Config}

theorem isSome_programId? {effect : Effect σ} {kind : SectionKind} {program : Program}
    (known : effect.program? kind = some program) : (effect.programId? kind).isSome = true := by
  rw [program?] at known
  exact Option.isSome_map.symm.trans (Option.isSome_of_eq_some known)

/-- The serialize section of an effect, if there is one, moves these items and nothing else,
and no init section is due in front of it. -/
def Moves (effect : Effect σ) (items : List (SavedItem Cell)) : Prop :=
  effect.programId? .serialize = none ∧ items = [] ∨
    effect.program? .serialize = some (items.map SavedItem.statement) ∧
      effect.hasInfo = true ∧ effect.rig.pending.init = false

/-- Saving and restoring is moving the items. -/
theorem serialize_of_moves {effect : Effect σ} {items : List (SavedItem Cell)}
    (moves : effect.Moves items) (mode : SerializeMode) (data : ByteArray) :
    effect.serialize mode data =
      let ran := Code.run (effect.codeHost serializeCaller) (items.map SavedItem.statement)
        (effect.store, effect.around.withSerializer (.start mode data))
      (ran.2.files.serializer.stream.bytes,
        { effect with store := ran.1, around := ran.2.withSerializer {} }) := by
  rcases moves with ⟨absent, nothing⟩ | ⟨known, informed, free⟩
  · subst nothing
    have ran : (effect.beginSerialize mode data).runSerialize =
        effect.beginSerialize mode data := by
      have still : (effect.beginSerialize mode data).programId? .serialize = none := absent
      rw [runSerialize, still]
      rfl
    rw [serialize, ran]
    rfl
  · have there : ((effect.beginSerialize mode data).programId? .serialize).isSome = true :=
      isSome_programId? known
    have ready : (effect.beginSerialize mode data).runDueInit =
        effect.beginSerialize mode data := by
      have still : (effect.beginSerialize mode data).rig.pending.init = false := free
      rw [runDueInit, still]
      rfl
    have begun : (effect.beginSerialize mode data).program? .serialize = _ := known
    have stillInformed : (effect.beginSerialize mode data).hasInfo = true := informed
    rw [serialize, runSerialize, if_pos there]
    dsimp only
    rw [ready, if_pos stillInformed, runSection, begun]
    rfl

/-- A state has the values of the sliders and the bytes of the items. -/
def stateOf (effect : Effect σ) (items : List (SavedItem Cell)) : EffectState where
  sliders := effect.sliderValues
  data := pack (SavedItem.allBytes items effect.store)

/-- Saving leaves the serializer idle and everything else as it is. -/
theorem saveState_of_moves {effect : Effect σ} {items : List (SavedItem Cell)}
    (moves : effect.Moves items) (compiled : effect.isCompiled = true)
    (informed : effect.hasInfo = true) :
    effect.saveState = (some (effect.stateOf items),
      { effect with around := effect.around.withSerializer {} }) := by
  have wrote := SavedItem.run_written effect.facts serializeCaller effect.store items
    effect.around []
  have saved := serialize_of_moves moves .writing ByteArray.empty
  have ran : Code.run (effect.codeHost serializeCaller) (items.map SavedItem.statement)
      (effect.store, effect.around.withSerializer (.start .writing ByteArray.empty)) =
      (effect.store, effect.around.withSerializer
        (.written (SavedItem.allBytes items effect.store))) := wrote
  rw [ran] at saved
  have known : ({ effect with
      around := effect.around.withSerializer {} } : Effect σ).hasInfo = true := informed
  rw [saveState, if_pos compiled, saved]
  exact if_pos known

/-- Restoring what was saved puts the store back, with the variables of the items rounded. -/
theorem loadState_of_moves {effect : Effect σ} {items : List (SavedItem Cell)}
    (moves : effect.Moves items) (compiled : effect.isCompiled = true)
    (informed : effect.hasInfo = true) (slotted : effect.header.Slotted)
    (hosted : effect.store.Hosted) (readable : ∀ item ∈ items, item.Readable effect.store) :
    ∃ loaded, effect.loadState (effect.stateOf items) = (true, loaded) ∧ loaded.Moves items ∧
      effect.rig.KeepsCode loaded.rig ∧
      Store.Restored (fun cell => .value cell ∈ items) effect.store loaded.store := by
  let reset := effect.perform (.restoreSliders (effect.stateOf items).sliders)
  have sliders : Store.Restored (fun _ => False) effect.store reset.store := by
    have back := restored_restoreSliders hosted effect.header
    rw [← sliderValues_eq slotted] at back
    exact back
  have moving : reset.Moves items := moves
  have reads := Serializer.reads_start (effect.stateOf items).data
  rcases SavedItem.run_reads effect.facts serializeCaller readable sliders effect.around reads
    with ⟨after, next, ran, restored⟩
  let loaded := { reset with store := after, around := effect.around.withSerializer {} }
  simp only [or_false] at restored
  refine ⟨loaded, ?_, moves, ⟨rfl, rfl, rfl, rfl, rfl⟩, restored⟩
  have begun : effect.loadState (effect.stateOf items) =
      (true, (reset.serialize .reading (effect.stateOf items).data).2) := by
    rw [loadState, compiled, informed]
    rfl
  have done : Code.run (reset.codeHost serializeCaller) (items.map SavedItem.statement)
      (reset.store, reset.around.withSerializer
        (.start .reading (effect.stateOf items).data)) = (after, effect.around.withSerializer next) :=
    ran
  rw [begun, serialize_of_moves moving, done]
  rfl

/-- What is saved of a restored store are the bytes that were saved before, and the sliders
are those that were saved before unless one of them is among the items and was rounded. -/
theorem stateOf_of_restored {effect loaded : Effect σ} (header : loaded.header = effect.header)
    (slotted : effect.header.Slotted) {items : List (SavedItem Cell)}
    (restored : Store.Restored (fun cell => .value cell ∈ items) effect.store loaded.store) :
    (loaded.stateOf items).data = (effect.stateOf items).data ∧
      (loaded.stateOf items = effect.stateOf items ↔ ∀ cell, .value cell ∈ items →
        effect.header.Declares cell →
          roundToSingle (effect.store.get cell) = effect.store.get cell) := by
  have data : (loaded.stateOf items).data = (effect.stateOf items).data :=
    congrArg pack (SavedItem.allBytes_of_restored restored items)
  have sliders : loaded.stateOf items = effect.stateOf items ↔
      ∀ slot ∈ effect.header.declaredSlots,
        loaded.store.read (.slider slot) = effect.store.read (.slider slot) := by
    rw [stateOf, stateOf, SavedItem.allBytes_of_restored restored, EffectState.mk.injEq,
      and_iff_left rfl, sliderValues_eq slotted, sliderValues_eq (header ▸ slotted), header,
      List.map_inj_left]
    simp only [slotValue, SliderValue.mk.injEq, true_and]
  refine ⟨data, sliders.trans ⟨?_, ?_⟩⟩
  · rintro same cell passed ⟨slot, declared, rfl⟩
    have member : slot ∈ effect.header.declaredSlots :=
      List.mem_filter.mpr ⟨List.mem_finRange slot, declared⟩
    exact (restored.round _ passed).symm.trans (same slot member)
  · intro exact slot member
    by_cases passed : .value (HostVariable.slider slot).cell ∈ items
    · have declares : effect.header.Declares (HostVariable.slider slot).cell :=
        ⟨slot, (List.mem_filter.mp member).2, rfl⟩
      exact (restored.round _ passed).trans (exact _ passed declares)
    · exact restored.exact _ passed

/-- A state that is saved and restored at once is saved again with the same data, and with
the same sliders if those of some cells are not changed by rounding. -/
def RoundTrips (effect : Effect σ) (store : Store) (passed : Cell → Prop) : Prop :=
  ∃ state again, effect.saveState.1 = some state ∧
    (effect.saveState.2.loadState state).1 = true ∧
    (effect.saveState.2.loadState state).2.saveState.1 = some again ∧
    again.data = state.data ∧
    (again = state ↔ ∀ cell, passed cell → effect.header.Declares cell →
      roundToSingle (store.get cell) = store.get cell)

/-- What was saved with no init section due is saved again after it was restored. -/
theorem roundTrips_of_moves {effect : Effect σ} {items : List (SavedItem Cell)}
    (moves : effect.Moves items) (compiled : effect.isCompiled = true)
    (informed : effect.hasInfo = true) (slotted : effect.header.Slotted)
    (hosted : effect.store.Hosted) (readable : ∀ item ∈ items, item.Readable effect.store) :
    effect.RoundTrips effect.store fun cell => .value cell ∈ items := by
  let idle : Effect σ := { effect with around := effect.around.withSerializer {} }
  have saved : effect.saveState = (some (effect.stateOf items), idle) :=
    saveState_of_moves moves compiled informed
  have moving : idle.Moves items := moves
  rcases loadState_of_moves moving compiled informed slotted hosted readable with
    ⟨loaded, back, moved, keeps, restored⟩
  have header : loaded.header = idle.header := by
    rw [Effect.header, Effect.header, keeps.info]
  have again : loaded.saveState.1 = some (loaded.stateOf items) := by
    rw [saveState_of_moves moved]
    · rw [isCompiled, keeps.sections]
      exact compiled
    · rw [hasInfo, keeps.info]
      exact informed
  rcases stateOf_of_restored header slotted restored with ⟨data, sliders⟩
  rw [RoundTrips, saved]
  refine ⟨effect.stateOf items, loaded.stateOf items, rfl, congrArg Prod.fst back, ?_, data,
    sliders⟩
  exact (congrArg (fun result => result.2.saveState.1) back).trans again

/-! ## Init in front of saving -/

/-- An effect that begins to save, behind the init sections that are due. -/
def readyToSave (effect : Effect σ) : Effect σ :=
  (effect.beginSerialize .writing ByteArray.empty).runDueInit

theorem keepsCode_readyToSave (effect : Effect σ) :
    effect.rig.KeepsCode effect.readyToSave.rig :=
  .of_continues (continues_runDueInit (effect.beginSerialize .writing ByteArray.empty))

theorem grounded_readyToSave {effect : Effect σ} (grounded : effect.Grounded config) :
    effect.readyToSave.Grounded config := by
  have begun := grounded_perform grounded (.beginSerialize .writing ByteArray.empty)
  rw [readyToSave, runDueInit_eq_performAll]
  exact grounded_performAll begun _

theorem init_readyToSave {effect : Effect σ} (informed : effect.hasInfo = true) :
    effect.readyToSave.rig.pending.init = false := by
  have known : (effect.beginSerialize .writing ByteArray.empty).hasInfo = true := informed
  rw [readyToSave, pending_runDueInit known]
  split
  · rfl
  · next free => exact Bool.not_eq_true _ ▸ free

/-- Where init that is due leaves the serializer alone, saving runs it and then saves. -/
theorem saveState_readyToSave {effect : Effect σ} (compiled : effect.isCompiled = true)
    (informed : effect.hasInfo = true)
    (there : (effect.programId? .serialize).isSome = true)
    (spared : effect.readyToSave.around.files.serializer = .start .writing ByteArray.empty) :
    effect.saveState = effect.readyToSave.saveState := by
  let begun := effect.beginSerialize .writing ByteArray.empty
  have keeps := keepsCode_readyToSave effect
  have same : effect.readyToSave.beginSerialize .writing ByteArray.empty = effect.readyToSave := by
    rw [beginSerialize, FileTable.beginSerialize, ← spared]
  have done : effect.readyToSave.runDueInit = effect.readyToSave := by
    rw [runDueInit, init_readyToSave informed]
    rfl
  have present : (begun.programId? .serialize).isSome = true := there
  have still : (effect.readyToSave.programId? .serialize).isSome = true := by
    rw [programId?_of_keepsCode keeps]
    exact there
  have serialized : effect.serialize .writing ByteArray.empty =
      effect.readyToSave.serialize .writing ByteArray.empty := by
    rw [serialize, serialize, same, runSerialize, runSerialize, if_pos present, if_pos still,
      done]
    rfl
  have stillCompiled : effect.readyToSave.isCompiled = true := by
    rw [isCompiled, keeps.sections]
    exact compiled
  rw [saveState, saveState, if_pos compiled, if_pos stillCompiled, serialized]

/-- What a section of items saves behind the init sections that are due is saved again after
it was restored. -/
theorem roundTrips_of_program {effect : Effect σ} (grounded : effect.Grounded config)
    (compiled : effect.isCompiled = true) {items : List (SavedItem Cell)}
    (known : effect.program? .serialize = some (items.map SavedItem.statement))
    (spared : effect.readyToSave.around.files.serializer = .start .writing ByteArray.empty)
    (readable : ∀ item ∈ items, item.Readable effect.readyToSave.store) :
    effect.RoundTrips effect.readyToSave.store fun cell => .value cell ∈ items := by
  have informed := grounded.hasInfo compiled
  have there := isSome_programId? known
  have keeps := keepsCode_readyToSave effect
  have ready := grounded_readyToSave grounded
  have stillCompiled : effect.readyToSave.isCompiled = true := by
    rw [isCompiled, keeps.sections]
    exact compiled
  have moving : effect.readyToSave.Moves items := by
    refine Or.inr ⟨?_, ready.hasInfo stillCompiled, init_readyToSave informed⟩
    rw [program?, programId?_of_keepsCode keeps, programOf_of_keepsCode keeps]
    exact known
  have header : effect.readyToSave.header = effect.header := by
    rw [Effect.header, Effect.header, keeps.info]
  rw [RoundTrips, saveState_readyToSave compiled informed there spared, ← header]
  exact roundTrips_of_moves moving stillCompiled (ready.hasInfo stillCompiled) ready.slotted
    ready.hosted readable

/-- Where no init section is there, none uses the serializer. -/
theorem serializer_readyToSave {effect : Effect σ} (none : effect.initIds = []) :
    effect.readyToSave.around.files.serializer = .start .writing ByteArray.empty := by
  let begun := effect.beginSerialize .writing ByteArray.empty
  have nothing : begun.startInit.runInitPrograms = begun.startInit := by
    have still : begun.startInit.initIds = [] := by
      rw [initIds, rig_startInit]
      exact none
    rw [runInitPrograms, initPrograms, still]
    rfl
  rw [readyToSave, runDueInit]
  split
  · rw [runInit]
    split
    · rw [runKnownInit, nothing]
      change begun.startInit.around.files.serializer = _
      rw [startInit]
      dsimp only
      split <;> rfl
    · rfl
  · rfl

/-! ## From the source -/

/-- The items that the serialize section of the script moves, if it does nothing else. -/
def savedItems? (effect : Effect σ) : Option (List (SavedItem String)) := do
  let script ← effect.rig.script?
  let part ← script.section? .serialize
  SavedItem.ofSource? part.text

theorem statements_of_savedItems? {effect : Effect σ} {items : List (SavedItem String)}
    (moved : effect.savedItems? = some items) (script : LoadedScript) (part : Section)
    (known : effect.rig.script? = some script) (own : script.section? .serialize = some part) :
    Code.statements? part.text = some (items.map SavedItem.statement) := by
  apply SavedItem.statements_of_ofSource?
  rw [savedItems?, known] at moved
  change (script.section? .serialize).bind _ = some items at moved
  rw [own] at moved
  exact moved

/-- The cells of the variables that the serialize section passes to functions. -/
def savedCells (effect : Effect σ) : List Cell :=
  Code.variablesOfAll ((effect.program? .serialize).getD [])

/-- The round trip of a state, for scripts whose serialize section, if there is one, is a
sequence of calls that move values, texts and blocks. -/
theorem saved_state_comes_back {effect : Effect σ} (reached : Reached painter config effect)
    (compiled : effect.isCompiled = true) {items : List (SavedItem String)}
    (straight : ∀ script part, effect.rig.script? = some script →
      script.section? .serialize = some part →
        Code.statements? part.text = some (items.map SavedItem.statement))
    (spared : (effect.programId? .serialize).isSome = true →
      effect.readyToSave.around.files.serializer = .start .writing ByteArray.empty)
    (readable : ∀ item ∈ items, item.Readable effect.readyToSave.store) :
    ∃ state again, effect.saveState.1 = some state ∧
      (effect.saveState.2.loadState state).1 = true ∧
      (effect.saveState.2.loadState state).2.saveState.1 = some again ∧
      again.data = state.data ∧
      (again = state ↔ ∀ cell ∈ effect.savedCells, effect.header.Declares cell →
        roundToSingle (effect.readyToSave.store.get cell) =
          effect.readyToSave.store.get cell) := by
  have grounded := reached.grounded
  cases known : effect.program? .serialize with
  | none =>
      have absent : effect.programId? .serialize = none := Option.map_eq_none_iff.mp known
      have nothing : effect.savedCells = [] := by
        rw [savedCells, known]
        rfl
      have law := roundTrips_of_moves (Or.inl ⟨absent, rfl⟩) compiled
        (grounded.hasInfo compiled) grounded.slotted grounded.hosted (List.forall_mem_nil _)
      rw [nothing]
      simpa [RoundTrips] using law
  | some program =>
      rcases reached.linked .serialize (by decide) (by decide) program known with
        ⟨script, part, own, section?, statements, machine, read, made⟩
      have same : statements = items.map SavedItem.statement :=
        Option.some.inj (read.symm.trans (straight script part own section?))
      rcases SavedItem.linkAll_statements script.info.aliases.cell? items machine with
        ⟨linked, code, kept⟩
      rw [made, same, code] at known
      have cells : ∀ cell, cell ∈ effect.savedCells ↔ .value cell ∈ linked := by
        intro cell
        rw [savedCells, known, Option.getD_some]
        exact SavedItem.mem_variables_statements
      simp only [cells]
      exact roundTrips_of_program grounded compiled known (spared (isSome_programId? known))
        (kept _ readable)

/-- A slider, a text and two slots of memory. -/
theorem saved_state_comes_back_slider :
    let painter : Painter Unit :=
      { size := fun _ => (4, 3), scale := fun _ => 1.0, reset := fun surface => surface
        call := fun _ _ effect => (0.0, effect)
        takeDirty := fun surface => (true, surface) }
    let source := "slider1:0.5<0,1>A\n@serialize\n" ++
      "file_var(0, slider1);\nfile_string(0, 7);\nfile_mem(0, 8, 2);\n"
    let disk := Disk.empty.addFile ["script"] source.toUTF8
    let effect := (((Effect.new disk {}).load "/script" false).effect.compile {}).effect
    (Reached painter {} effect ∧ effect.isCompiled = true ∧ effect.savedItems? =
      some [.value "slider1", .text ⟨false, 7.0⟩, .block ⟨false, 8.0⟩ ⟨false, 2.0⟩]) ∧
    ∃ state, effect.saveState.1 = some state ∧ (effect.saveState.2.loadState state).1 = true ∧
      (effect.saveState.2.loadState state).2.saveState.1 = some state := by
  intro painter source disk effect
  let items : List (SavedItem String) :=
    [.value "slider1", .text ⟨false, 7.0⟩, .block ⟨false, 8.0⟩ ⟨false, 2.0⟩]
  have reached : Reached painter {} effect := ((Reached.new disk).load "/script" false).compile {}
  have facts : effect.isCompiled = true ∧ effect.initIds = [] ∧
      effect.savedItems? = some items ∧
      (∀ slot, effect.header.sliders[slot].declared = true →
        roundToSingle (effect.readyToSave.store.get (HostVariable.slider slot).cell) =
          effect.readyToSave.store.get (HostVariable.slider slot).cell) ∧
      effect.readyToSave.store.strings.texts.isEmpty = true ∧
      SavedItem.slots 8.0 2.0 ≤ effect.readyToSave.store.memory.limit - toNatural 8.0 := by
    decide +kernel
  rcases facts with ⟨compiled, none, moved, values, blank, room⟩
  have readable : ∀ item ∈ items, item.Readable effect.readyToSave.store := by
    have empty : effect.readyToSave.store.strings.text 7.0 = "" := by
      simp [Strings.text, Strings.find?, Std.HashMap.getElem?_of_isEmpty blank]
    have short : (Utf8.encode (effect.readyToSave.store.strings.text 7.0)).size < 2 ^ 32 := by
      rw [empty]
      decide
    intro item member
    simp only [items, List.mem_cons, List.not_mem_nil, or_false] at member
    rcases member with rfl | rfl | rfl
    · trivial
    · exact short
    · exact room
  rcases saved_state_comes_back reached compiled (statements_of_savedItems? moved)
    (fun _ => serializer_readyToSave none) readable with
    ⟨state, again, saved, loaded, second, _, same⟩
  have unchanged : again = state := by
    apply same.mpr
    rintro cell _ ⟨slot, declared, rfl⟩
    exact values slot declared
  rw [unchanged] at second
  exact ⟨⟨reached, compiled, moved⟩, state, saved, loaded, second⟩

/-- A slider whose value single precision does not have is rounded where the section restores
it, and the state that is saved then has the rounded value. -/
theorem saved_slider_comes_back_rounded :
    let painter : Painter Unit :=
      { size := fun _ => (4, 3), scale := fun _ => 1.0, reset := fun surface => surface
        call := fun _ _ effect => (0.0, effect)
        takeDirty := fun surface => (true, surface) }
    let source := "slider1:0.1<0,1>A\n@serialize\nfile_var(0, slider1);\n"
    let disk := Disk.empty.addFile ["script"] source.toUTF8
    let effect := (((Effect.new disk {}).load "/script" false).effect.compile {}).effect
    (Reached painter {} effect ∧ effect.isCompiled = true ∧
      effect.savedItems? = some [.value "slider1"] ∧
      (∀ cell, (effect.store.get cell).isNaN = false) ∧
      ∀ address, (effect.store.memory.read address).isNaN = false) ∧
    ∃ state, effect.saveState.1 = some state ∧ (effect.saveState.2.loadState state).1 = true ∧
      (effect.saveState.2.loadState state).2.saveState.1 ≠ some state := by
  intro painter source disk effect
  let cell := (HostVariable.slider 0).cell
  have reached : Reached painter {} effect := ((Reached.new disk).load "/script" false).compile {}
  have facts : effect.isCompiled = true ∧ effect.initIds = [] ∧
      effect.savedItems? = some [.value "slider1"] ∧
      (effect.programId? .serialize).isSome = true ∧
      (effect.rig.script?.bind fun script => script.info.aliases.cell? "slider1") = some cell ∧
      effect.header.sliders[(0 : Fin sliderSlots)].declared = true ∧
      roundToSingle (effect.readyToSave.store.get cell) ≠ effect.readyToSave.store.get cell ∧
      (∀ value ∈ effect.store.cells, value.isNaN = false) ∧
      effect.store.memory.slots.isEmpty = true := by
    decide +kernel
  rcases facts with ⟨compiled, none, moved, present, resolved, declared, rounded, cells, blank⟩
  have known : effect.program? .serialize =
      some ([SavedItem.value cell].map SavedItem.statement) := by
    rcases Option.isSome_iff_exists.mp present with ⟨id, found⟩
    have there : effect.program? .serialize = some (effect.programOf id) :=
      congrArg (Option.map effect.programOf) found
    rcases reached.linked .serialize (by decide) (by decide) _ there with
      ⟨script, part, own, section?, statements, machine, read, made⟩
    have straight := statements_of_savedItems? moved script part own section?
    rw [own, Option.bind_some] at resolved
    rw [read, Option.some.injEq] at straight
    have named : (machine.link script.info.aliases.cell? "slider1").1 = cell := by
      rw [Machine.link, resolved]
    rw [there, made, straight, ← named]
    rfl
  rcases roundTrips_of_program reached.grounded compiled known (serializer_readyToSave none)
    (by simp [SavedItem.Readable]) with ⟨state, again, saved, loaded, second, _, same⟩
  refine ⟨⟨reached, compiled, moved, ?_, ?_⟩, state, saved, loaded, ?_⟩
  · intro cell
    rw [Store.get, Array.getD]
    split
    · exact cells _ (Array.getElem_mem _)
    · decide +kernel
  · intro address
    have zero : effect.store.memory.read address = 0.0 := by
      simp [Memory.read, Std.HashMap.getD_of_isEmpty blank]
    rw [zero]
    decide +kernel
  · rw [second]
    intro unchanged
    have exact := same.mp (Option.some.inj unchanged) cell List.mem_cons_self ⟨0, declared, rfl⟩
    exact rounded exact

end Effect
end EffectHost

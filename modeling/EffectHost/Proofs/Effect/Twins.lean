import EffectHost.Proofs.Effect.Answers
import EffectHost.Proofs.Effect.Grounded
import EffectHost.Proofs.Host.Twins

/-!
# Twin effects

Two effects are twins if they agree up to a shift of cells in everything that a script or a
host can find out from now on.  What nobody can find out need not agree: the numbers of the
programs, the note of moved sliders in front of a slider section that is due anyway, and the
keyboard and the request for a fresh start on a surface as long as drawing is not set up.
What twins are told to do they do alike, and remain twins.
-/

namespace EffectHost

/-! ## Parts of a rig -/

/-- The code that an effect holds. -/
structure HeldCode where
  code : Codebase
  sections? : Option CompiledSections
  drawing? : Option Nat

namespace HeldCode

/-- The program of a number. -/
def programOf (held : HeldCode) (id : Nat) : Program :=
  held.code.programs.getD id []

/-- The program of a kind of section, if it is compiled. -/
def program? (held : HeldCode) (kind : SectionKind) : Option Program :=
  (if kind = .gfx then held.drawing?
  else held.sections?.bind fun sections => sections.single? kind).map held.programOf

/-- The init programs, in the order in which they run. -/
def inits (held : HeldCode) : List Program :=
  ((held.sections?.map CompiledSections.inits).getD []).map held.programOf

/-- The programs of one are those of the other with shifted cells. -/
structure Twins (shift : CellShift) (one two : HeldCode) : Prop where
  code : Codebase.Twins shift one.code two.code
  compiled : one.sections?.isSome = two.sections?.isSome
  programs : ∀ kind, two.program? kind =
    (one.program? kind).map (Program.rename shift.move)
  within : ∀ kind program, one.program? kind = some program → program.Within shift.InUse
  inits : two.inits = one.inits.map (Program.rename shift.move)
  initsWithin : ∀ program ∈ one.inits, program.Within shift.InUse

end HeldCode

/-- The same work waits.  Where a slider section is due, nobody can tell whether a slider was
moved on the drawing side. -/
structure PendingWork.Twins (compiled : Prop) (one two : PendingWork) : Prop where
  isFresh : one.isFresh = two.isFresh
  init : one.init = two.init
  slider : one.slider = two.slider
  triggers : one.triggers = two.triggers
  moved : compiled → one.slider = true ∨ one.sliderMoved = two.sliderMoved

/-- Two drawing sides agree.  Until drawing is set up, all that counts of a surface is what
resetting leaves of it. -/
structure Drawing.Twins {σ : Type} (painter : Painter σ) (one two : Drawing σ) : Prop where
  reset : one.surface?.map painter.reset = two.surface?.map painter.reset
  isReady : one.isReady = two.isReady
  wantsRetina : one.wantsRetina = two.wantsRetina
  isBusy : one.isBusy = two.isBusy
  surface : one.isReady = true → one.surface? = two.surface?
  requested : one.isReady = true → one.initRequested = two.initRequested

namespace Rig

variable {σ : Type}

/-- The code that a rig holds. -/
def heldCode (rig : Rig σ) : HeldCode where
  code := rig.code
  sections? := rig.sections?
  drawing? := rig.drawing.program?

/-- Two rigs agree up to a shift of cells. -/
structure Twins (painter : Painter σ) (shift : CellShift) (one two : Rig σ) : Prop where
  disk : one.disk = two.disk
  config : one.config = two.config
  script : one.script? = two.script?
  info : one.info? = two.info?
  blockSize : one.blockSize = two.blockSize
  sampleRate : one.sampleRate = two.sampleRate
  time : one.time = two.time
  held : HeldCode.Twins shift one.heldCode two.heldCode
  drawing : Drawing.Twins painter one.drawing two.drawing
  pending : PendingWork.Twins (one.sections?.isSome = true) one.pending two.pending

end Rig

namespace Effect

open HostFunction

variable {σ : Type} {painter : Painter σ} {shift : CellShift} {one two : Effect σ}

theorem program?_eq (effect : Effect σ) (kind : SectionKind) :
    effect.program? kind = effect.rig.heldCode.program? kind := by
  rw [program?, programId?]
  rfl

/-- Two effects agree up to a shift of cells. -/
structure Twins (painter : Painter σ) (shift : CellShift) (one two : Effect σ) : Prop where
  store : Store.Twins shift one.store two.store
  around : Surroundings.Same (one.rig.drawing.isReady = true) one.around two.around
  rig : Rig.Twins painter shift one.rig two.rig

namespace Twins

/-! ## What twins have in common -/

theorem machine (twins : Twins painter shift one two) :
    Machine.Twins shift one.machine two.machine :=
  ⟨twins.store, twins.rig.held.code⟩

/-- What running code reaches. -/
theorem state (twins : Twins painter shift one two) :
    HostFunction.Twins shift (one.rig.drawing.isReady = true) (one.store, one.around)
      (two.store, two.around) :=
  ⟨twins.store, twins.around⟩

theorem header (twins : Twins painter shift one two) : one.header = two.header := by
  rw [Effect.header, Effect.header, twins.rig.info]

theorem hasInfo (twins : Twins painter shift one two) : one.hasInfo = two.hasInfo := by
  rw [Effect.hasInfo, Effect.hasInfo, twins.rig.info]

theorem isCompiled (twins : Twins painter shift one two) : one.isCompiled = two.isCompiled :=
  twins.rig.held.compiled

theorem facts (twins : Twins painter shift one two) : one.facts = two.facts := by
  rw [Effect.facts, Effect.facts, twins.header, twins.rig.disk, twins.rig.info,
    twins.rig.config]

theorem program? (twins : Twins painter shift one two) (kind : SectionKind) :
    two.program? kind = (one.program? kind).map (Program.rename shift.move) := by
  rw [program?_eq, program?_eq]
  exact twins.rig.held.programs kind

theorem within (twins : Twins painter shift one two) {kind : SectionKind} {program : Program}
    (found : one.program? kind = some program) : program.Within shift.InUse := by
  rw [program?_eq] at found
  exact twins.rig.held.within kind program found

/-- Both have a program of a kind, or neither. -/
theorem programId?_isSome (twins : Twins painter shift one two) (kind : SectionKind) :
    (one.programId? kind).isSome = (two.programId? kind).isSome := by
  have same := congrArg Option.isSome (twins.program? kind)
  simp only [Effect.program?, Option.isSome_map] at same
  exact same.symm

/-! ## Changes of one part -/

theorem withStore (twins : Twins painter shift one two) {first second : Store}
    (store : Store.Twins shift first second) :
    Twins painter shift { one with store := first } { two with store := second } :=
  ⟨store, twins.around, twins.rig⟩

theorem withAround (twins : Twins painter shift one two) {first second : Surroundings}
    (around : Surroundings.Same (one.rig.drawing.isReady = true) first second) :
    Twins painter shift { one with around := first } { two with around := second } :=
  ⟨twins.store, around, twins.rig⟩

theorem updatePending (twins : Twins painter shift one two)
    {change other : PendingWork → PendingWork}
    (pending : PendingWork.Twins (one.rig.sections?.isSome = true) (change one.rig.pending)
      (other two.rig.pending)) :
    Twins painter shift (one.updatePending change) (two.updatePending other) :=
  ⟨twins.store, twins.around, { twins.rig with pending := pending }⟩

/-! ## Running code -/

/-- Code that does not draw runs alike. -/
theorem run (twins : Twins painter shift one two) {caller : Caller}
    (deaf : caller.mayUseKeyboard = false) {program : Program}
    (within : program.Within shift.InUse) :
    Twins painter shift (one.run caller program)
      (two.run caller (program.rename shift.move)) := by
  have heard : caller.mayUseKeyboard = true → one.rig.drawing.isReady = true := by
    intro hears
    rw [deaf] at hears
    cases hears
  have ran := Code.run_mirrors (mirrors_call one.facts heard) within twins.state
  rw [Effect.run, Effect.run, codeHost, codeHost, ← twins.facts]
  exact ⟨ran.store, ran.around, twins.rig⟩

/-- The section of a kind runs alike. -/
theorem runSection (twins : Twins painter shift one two) {caller : Caller}
    (deaf : caller.mayUseKeyboard = false) (kind : SectionKind) :
    Twins painter shift (one.runSection caller kind) (two.runSection caller kind) := by
  rw [Effect.runSection, Effect.runSection, twins.program? kind]
  cases found : one.program? kind with
  | none => exact twins
  | some program => exact twins.run deaf (twins.within found)

/-! ## In front of a block -/

theorem beginCycle (twins : Twins painter shift one two) :
    Twins painter shift one.beginCycle two.beginCycle := by
  have around := twins.around
  have pending := twins.rig.pending
  refine ⟨?_, ⟨?_, around.files, congrArg MidiLog.rewind around.input,
    congrArg MidiLog.clear around.output, around.keyboard⟩,
    { twins.rig with pending := ?_ }⟩
  · rw [Effect.beginCycle, Effect.beginCycle, pending.triggers]
    exact twins.store.write .trigger _
  · rw [Effect.beginCycle, Effect.beginCycle, around.masks]
  · exact ⟨pending.isFresh, pending.init, pending.slider, rfl, pending.moved⟩

theorem clearInput (twins : Twins painter shift one two) :
    Twins painter shift one.clearInput two.clearInput := by
  have around := twins.around
  exact twins.withAround ⟨around.masks, around.files, congrArg MidiLog.clear around.input,
    around.output, around.keyboard⟩

theorem prepareFresh (twins : Twins painter shift one two) :
    Twins painter shift one.prepareFresh two.prepareFresh := by
  have around := twins.around
  rw [Effect.prepareFresh, Effect.prepareFresh, twins.rig.blockSize, twins.header]
  exact ⟨twins.store.writeAll _, ⟨rfl, around.files, around.input, around.output,
    around.keyboard⟩, twins.rig⟩

theorem startInit (twins : Twins painter shift one two) :
    Twins painter shift one.startInit two.startInit := by
  have prepared : Twins painter shift
      (if one.rig.pending.isFresh then one.prepareFresh else one)
      (if two.rig.pending.isFresh then two.prepareFresh else two) := by
    rw [twins.rig.pending.isFresh]
    split
    · exact twins.prepareFresh
    · exact twins
  have around := prepared.around
  rw [Effect.startInit, Effect.startInit]
  refine ⟨?_, ⟨around.masks, congrArg FileTable.clear around.files, around.input,
    around.output, around.keyboard⟩, prepared.rig⟩
  dsimp only
  rw [prepared.rig.sampleRate]
  exact prepared.store.write .sampleRate _

theorem runInitPrograms (twins : Twins painter shift one two) :
    Twins painter shift one.runInitPrograms two.runInitPrograms := by
  have onward : ∀ (programs : List Program) {one two : Effect σ},
      Twins painter shift one two → (∀ program ∈ programs, program.Within shift.InUse) →
        Twins painter shift
          (programs.foldl (fun effect program => effect.run cycleCaller program) one)
          ((programs.map (Program.rename shift.move)).foldl
            (fun effect program => effect.run cycleCaller program) two) := by
    intro programs
    induction programs with
    | nil => exact fun twins _ => twins
    | cons program others ih =>
        intro one two twins within
        rw [List.forall_mem_cons] at within
        exact ih (twins.run rfl within.1) within.2
  have mirrored : two.initPrograms = one.initPrograms.map (Program.rename shift.move) :=
    twins.rig.held.inits
  rw [Effect.runInitPrograms, Effect.runInitPrograms, mirrored]
  exact onward _ twins twins.rig.held.initsWithin

theorem noteInit (twins : Twins painter shift one two) :
    Twins painter shift one.noteInit two.noteInit := by
  have drawing := twins.rig.drawing
  have pending := twins.rig.pending
  have retina : one.store.read .gfxRetina = two.store.read .gfxRetina :=
    twins.store.read .gfxRetina
  refine ⟨twins.store, twins.around, { twins.rig with drawing := ?_, pending := ?_ }⟩
  · refine ⟨drawing.reset, drawing.isReady, ?_, drawing.isBusy, drawing.surface, fun _ => rfl⟩
    exact congrArg (fun value : Float => decide (0.0 < value)) retina
  · exact ⟨rfl, rfl, rfl, pending.triggers, fun _ => .inl rfl⟩

theorem runDueInit (twins : Twins painter shift one two) :
    Twins painter shift one.runDueInit two.runDueInit := by
  rw [Effect.runDueInit, Effect.runDueInit, twins.rig.pending.init, Effect.runInit,
    Effect.runInit, twins.hasInfo]
  split
  · split
    · exact twins.startInit.runInitPrograms.noteInit
    · exact twins
  · exact twins

/-- Compiled code takes the same notice of moved sliders. -/
theorem noteMoves (twins : Twins painter shift one two) (compiled : one.isCompiled = true) :
    Twins painter shift one.noteMoves two.noteMoves := by
  have pending := twins.rig.pending
  apply twins.updatePending
  refine ⟨pending.isFresh, pending.init, ?_, pending.triggers, fun _ => .inr rfl⟩
  rcases pending.moved compiled with due | moved
  · have dueToo := pending.slider.symm.trans due
    simp only [due, dueToo, Bool.true_or]
  · simp only [pending.slider, moved]

/-! ## A block -/

theorem tellCycle (twins : Twins painter shift one two) (plan : ChannelPlan) (frames : Nat) :
    Twins painter shift (one.tellCycle plan frames) (two.tellCycle plan frames) :=
  twins.withStore (twins.store.writeAll _)

/-- Once moves have been noted, a slider section that is due runs in both. -/
theorem runDueSlider (twins : Twins painter shift one two)
    (noted : one.rig.pending.sliderMoved = two.rig.pending.sliderMoved) :
    Twins painter shift one.runDueSlider two.runDueSlider := by
  have ran : Twins painter shift
      (if one.rig.pending.slider then one.runSection cycleCaller .slider else one)
      (if two.rig.pending.slider then two.runSection cycleCaller .slider else two) := by
    rw [twins.rig.pending.slider]
    split
    · exact twins.runSection rfl .slider
    · exact twins
  have same : ∀ effect : Effect σ,
      (if effect.rig.pending.slider then effect.runSection cycleCaller .slider
        else effect).rig = effect.rig := by
    intro effect
    split
    · exact rig_runSection effect cycleCaller .slider
    · rfl
  have pending := ran.rig.pending
  rw [Effect.runDueSlider, Effect.runDueSlider]
  apply ran.updatePending
  refine ⟨pending.isFresh, pending.init, rfl, pending.triggers, fun _ => .inr ?_⟩
  rw [same one, same two]
  exact noted

/-- The frames of a block come out alike. -/
theorem twins_runFrames {listening : Prop} (facts : Facts) {caller : Caller}
    (heard : caller.mayUseKeyboard = true → listening) {program : Program}
    (within : program.Within shift.InUse) (plan : ChannelPlan) (precision : Precision)
    (inputs : List Channel) (frames : Nat) {one two : HostFunction.State}
    (twins : HostFunction.Twins shift listening one two) :
    let ran := runFrames { call := HostFunction.call facts caller } program plan precision
      inputs frames one
    let ranToo := runFrames { call := HostFunction.call facts caller }
      (program.rename shift.move) plan precision inputs frames two
    ran.1 = ranToo.1 ∧ HostFunction.Twins shift listening ran.2 ranToo.2 := by
  rw [runFrames, runFrames]
  -- The rows collected so far are the same, whatever they are.
  generalize (#[] : Array (Array Float)) = rows
  induction List.range frames generalizing rows one two with
  | nil => exact ⟨rfl, twins⟩
  | cons frame others ih =>
      rcases one with ⟨store, around⟩
      rcases two with ⟨storeToo, aroundToo⟩
      have fed : HostFunction.Twins shift listening (feedFrame plan inputs frame store, around)
          (feedFrame plan inputs frame storeToo, aroundToo) := by
        refine ⟨?_, twins.around⟩
        rw [feedFrame_eq_writeAll, feedFrame_eq_writeAll]
        exact twins.store.writeAll _
      have ran := Code.run_mirrors (mirrors_call facts heard) within fed
      have row : outputFrame plan precision
            (Code.run { call := HostFunction.call facts caller } program
              (feedFrame plan inputs frame store, around)).1 =
          outputFrame plan precision
            (Code.run { call := HostFunction.call facts caller } (program.rename shift.move)
              (feedFrame plan inputs frame storeToo, aroundToo)).1 := by
        simp only [outputFrame, ran.store.read]
      simp only [List.foldl_cons, row]
      exact ih ran _

theorem runBlock (twins : Twins painter shift one two) (plan : ChannelPlan)
    (precision : Precision) (inputs outputs : List Channel) (frames : Nat) :
    (one.runBlock plan precision inputs outputs frames).1 =
        (two.runBlock plan precision inputs outputs frames).1 ∧
      Twins painter shift (one.runBlock plan precision inputs outputs frames).2
        (two.runBlock plan precision inputs outputs frames).2 := by
  rw [Effect.runBlock, Effect.runBlock, twins.program? .sample]
  cases found : one.program? .sample with
  | none => exact ⟨rfl, twins⟩
  | some program =>
      have heard : cycleCaller.mayUseKeyboard = true →
          one.rig.drawing.isReady = true := fun keyboard => absurd keyboard Bool.false_ne_true
      rcases twins_runFrames one.facts heard (twins.within found) plan precision inputs frames
        twins.state with ⟨rows, states⟩
      simp only [Option.map_some, codeHost, ← twins.facts]
      exact ⟨congrArg (collect plan · outputs) rows, states.store, states.around, twins.rig⟩

/-! ## Cycles -/

theorem runCycle (twins : Twins painter shift one two)
    (noted : one.rig.pending.sliderMoved = two.rig.pending.sliderMoved)
    (precision : Precision) (inputs outputs : List Channel) (frames : Nat) :
    (one.runCycle precision inputs outputs frames).1 =
        (two.runCycle precision inputs outputs frames).1 ∧
      Twins painter shift (one.runCycle precision inputs outputs frames).2
        (two.runCycle precision inputs outputs frames).2 := by
  let plan := ChannelPlan.of two.header inputs outputs
  have deaf : cycleCaller.mayUseKeyboard = false := rfl
  have told := twins.tellCycle plan frames
  have begun := (told.runDueSlider noted).runSection deaf .block
  rcases begun.runBlock plan precision inputs outputs frames with ⟨channels, done⟩
  rw [Effect.runCycle, Effect.runCycle, twins.header]
  exact ⟨channels, done.clearInput⟩

theorem execute (twins : Twins painter shift one two) (compiled : one.isCompiled = true)
    (precision : Precision) (inputs outputs : List Channel) (frames : Nat) :
    (one.execute precision inputs outputs frames).1 =
        (two.execute precision inputs outputs frames).1 ∧
      Twins painter shift (one.execute precision inputs outputs frames).2
        (two.execute precision inputs outputs frames).2 := by
  have still : one.runDueInit.isCompiled = true := by
    rw [Effect.isCompiled, (continues_runDueInit one).sections]
    exact compiled
  have ready := twins.runDueInit.noteMoves still
  rw [Effect.execute, Effect.execute, ready.hasInfo]
  split
  · exact ready.runCycle rfl precision inputs outputs frames
  · exact ⟨rfl, ready⟩

theorem bypass (twins : Twins painter shift one two) (triggers : Mask)
    (inputs outputs : List Channel) (frames : Nat) :
    (one.bypass triggers inputs outputs frames).1 =
        (two.bypass triggers inputs outputs frames).1 ∧
      Twins painter shift (one.bypass triggers inputs outputs frames).2
        (two.bypass triggers inputs outputs frames).2 := by
  have around := twins.around
  have pending := twins.rig.pending
  have output : one.around.output.pushAll one.around.input.events =
      two.around.output.pushAll two.around.input.events := by
    rw [around.input, around.output]
  rw [Effect.bypass, Effect.bypass, twins.header]
  refine ⟨rfl, twins.store, ⟨around.masks, around.files,
    congrArg MidiLog.clear around.input, output, around.keyboard⟩,
    { twins.rig with pending := ?_ }⟩
  exact ⟨pending.isFresh, pending.init, pending.slider,
    congrArg (Mask.union · triggers) pending.triggers, pending.moved⟩

/-- A cycle gives the same output. -/
theorem process (twins : Twins painter shift one two) (precision : Precision)
    (inputs outputs : List Channel) (frames : Nat) :
    (one.process precision inputs outputs frames).1 =
        (two.process precision inputs outputs frames).1 ∧
      Twins painter shift (one.process precision inputs outputs frames).2
        (two.process precision inputs outputs frames).2 := by
  have begun := twins.beginCycle
  rw [Effect.process, Effect.process, ← begun.isCompiled, ← begun.rig.drawing.isBusy,
    ← twins.rig.pending.triggers]
  cases compiled : one.beginCycle.isCompiled with
  | false => exact ⟨rfl, begun.clearInput⟩
  | true =>
      cases one.beginCycle.rig.drawing.isBusy with
      | false => exact begun.execute compiled precision inputs outputs frames
      | true => exact begun.bypass _ inputs outputs frames

end Twins
end Effect
end EffectHost

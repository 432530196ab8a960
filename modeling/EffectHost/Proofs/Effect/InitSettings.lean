import EffectHost.Proofs.Effect.DueWork
import EffectHost.Proofs.Effect.HostNames
import EffectHost.Proofs.Effect.Writes

/-!
# The settings that init sections find

Whenever the init sections begin, their code finds the sample rate that the host announced
last.  It finds the block size of the host only if it runs for the first time since it was
compiled.  Later it finds what is there already, and a cycle leaves there the number of its own
frames: another block size makes init run again, but init does not see it.
-/

namespace EffectHost

open Code

/-- The block size that code was told last, if init has run, after a moment.  Init that runs
for the first time is told the size that the host has announced. -/
def toldSizeAfter {σ : Type} (told? : Option Nat) (effect : Effect σ) :
    Moment σ → Option Nat
  | .cycle (.process _ _ _ frames) => if effect.rig.drawing.isBusy then told? else some frames
  | .saveState | .loadState _ =>
    if (effect.programId? .serialize).isSome then some (told?.getD effect.rig.blockSize)
    else told?
  | _ => told?

/-- The block size that code was told last, after moments in a row. -/
def toldSizeThrough {σ : Type} (painter : Painter σ) :
    Option Nat → Effect σ → List (Moment σ) → Option Nat
  | told?, _, [] => told?
  | told?, effect, next :: others =>
    toldSizeThrough painter (toldSizeAfter told? effect next) (effect.moment painter next) others

/-- Drawing code does not write to the variable in the moment. -/
def Moment.Spares {σ : Type} (name : HostVariable) : Moment σ → Prop
  | .assign cell _ => cell ≠ name.cell
  | .call _ _ args => ArgsSpare name.cell args
  | _ => True

/-- The step neither begins nor ends init, and it tells no block size. -/
def Step.leavesSize : Step → Bool
  | .startInit | .noteInit | .tell _ _ => false
  | _ => true

theorem Step.leavesSize_of_isInner {step : Step} (opens : step.isInner = false) :
    step.leavesSize = true := by
  cases step <;> first | rfl | cases opens

theorem Step.blockSize_not_mem_writes {step : Step} (leaves : step.leavesSize = true) :
    .blockSize ∉ step.writes := by
  cases step with
  | startInit | noteInit | tell => cases leaves
  | feed plan inputs frame =>
      intro written
      rcases List.mem_map.mp written with ⟨_, _, same⟩
      cases same
  | _ => simp [Step.writes]

namespace Effect

variable {σ : Type} {painter : Painter σ} {config : Config}

/-- No program writes to the variable. -/
def ProgramsSpare (effect : Effect σ) (name : HostVariable) : Prop :=
  ∀ id, name.cell ∉ (effect.programOf id).targets

theorem ProgramsSpare.of_keepsCode {before after : Effect σ} {name : HostVariable}
    (spare : before.ProgramsSpare name) (keeps : before.rig.KeepsCode after.rig) :
    after.ProgramsSpare name := by
  rw [ProgramsSpare, programOf_of_keepsCode keeps]
  exact spare

/-! ## Where init begins -/

theorem startInit_not_mem_blockSteps (effect : Effect σ) (inputs outputs : List Channel)
    (frames : Nat) : Step.startInit ∉ effect.blockSteps inputs outputs frames := by
  simp [blockSteps, frameSteps, sectionSteps]

/-- Steps are some that begin a cycle or a state, init if it is due, and others. -/
def HaveInitInFront (effect : Effect σ) (steps : List Step) : Prop :=
  ∃ opening init rest, steps = opening ++ init ++ rest ∧
    (∀ step ∈ opening, step.isInner = false) ∧ (init = [] ∨ init = effect.dueInitSteps) ∧
      .startInit ∉ rest

theorem haveInitInFront_stepsOf (effect : Effect σ) (next : Moment σ) :
    effect.HaveInitInFront (effect.stepsOf next) := by
  have serialized (mode : SerializeMode) (data : ByteArray) : ∃ init rest,
      effect.serializeSteps mode data = .beginSerialize mode data :: init ++ rest ∧
        (init = [] ∨ init = effect.dueInitSteps) ∧ .startInit ∉ rest := by
    rw [serializeSteps]
    split
    · refine ⟨effect.dueInitSteps, (if effect.hasInfo then effect.sectionSteps serializeCaller
        .serialize else []) ++ [.endSerialize], by simp, .inr rfl, ?_⟩
      split <;> simp [sectionSteps]
    · exact ⟨[], [.endSerialize], rfl, .inl rfl, by simp⟩
  have nothing : effect.HaveInitInFront [] :=
    ⟨[], [], [], rfl, List.forall_mem_nil _, .inl rfl, List.not_mem_nil⟩
  cases next with
  | cycle action =>
      cases action with
      | process precision inputs outputs frames =>
          rw [stepsOf, cycleSteps]
          split
          · exact ⟨[.begin], [], [.clearInput], rfl, by simp [Step.isInner], .inl rfl, by simp⟩
          · split
            · exact ⟨[.begin], [], _, rfl, by simp [Step.isInner], .inl rfl, by simp⟩
            · refine ⟨[.begin], effect.dueInitSteps, [.noteMoves] ++ (if effect.hasInfo then
                effect.blockSteps inputs outputs frames else []), by simp,
                by simp [Step.isInner], .inr rfl, ?_⟩
              split <;> simp [startInit_not_mem_blockSteps]
      | _ => exact nothing
  | saveState =>
      rw [stepsOf, saveSteps]
      split
      · rcases serialized .writing ByteArray.empty with ⟨init, rest, parts, due, absent⟩
        exact ⟨[_], init, rest, parts, by simp [Step.isInner], due, absent⟩
      · exact nothing
  | loadState state =>
      rw [stepsOf, loadSteps]
      split
      · rcases serialized .reading state.data with ⟨init, rest, parts, due, absent⟩
        refine ⟨[_, _], init, rest, congrArg (Step.restoreSliders state.sliders :: ·) parts,
          by simp [Step.isInner], due, absent⟩
      · exact nothing
  | _ => exact nothing

/-- In front of init stand only steps that begin a cycle or a state. -/
theorem opens_of_startInit {effect : Effect σ} {next : Moment σ} {before behind : List Step}
    (split : effect.stepsOf next = before ++ .startInit :: behind) :
    ∀ step ∈ before, step.isInner = false := by
  rcases haveInitInFront_stepsOf effect next with ⟨opening, init, rest, parts, opens, due, absent⟩
  have notOpening : .startInit ∉ opening := fun member => absurd (opens _ member) (by decide)
  have nothing : ¬ opening ++ rest = before ++ .startInit :: behind := by
    intro same
    have member : .startInit ∈ opening ++ rest := by simp [same]
    exact (List.mem_append.mp member).elim notOpening absent
  rw [split] at parts
  rcases due with rfl | rfl
  · exact absurd (by simpa using parts.symm) nothing
  · rw [dueInitSteps] at parts
    split at parts
    · have runs : .startInit ∉
          effect.initIds.map (Step.run cycleCaller) ++ [.noteInit] ++ rest := by
        simp [absent]
      have same : opening ++ .startInit :: (effect.initIds.map (Step.run cycleCaller) ++
          [.noteInit] ++ rest) = before ++ .startInit :: behind := by
        simpa using parts.symm
      rw [← ((List.append_cons_inj_of_notMem notOpening runs).mp same).1]
      exact opens
    · exact absurd (by simpa using parts.symm) nothing

/-! ## What init finds -/

theorem read_writeAll_head {store : Store} (hosted : store.Hosted) {name : HostVariable}
    {others : List (HostVariable × Float)} (absent : name ∉ others.map Prod.fst) (value : Float) :
    (store.writeAll ((name, value) :: others)).read name = value :=
  (Store.read_writeAll_of_not_mem absent _).trans (Store.read_write_self hosted name value)

theorem read_sampleRate_startInit {effect : Effect σ} (hosted : effect.store.Hosted) :
    effect.startInit.store.read .sampleRate = effect.rig.sampleRate := by
  rw [startInit]
  dsimp only
  split
  · exact Store.read_write_self (hosted.of_sameShape (Store.sameShape_writeAll _ _)) _ _
  · exact Store.read_write_self hosted _ _

/-- Only the first init is told the block size. -/
theorem read_blockSize_startInit {effect : Effect σ} (hosted : effect.store.Hosted) :
    effect.startInit.store.read .blockSize =
      if effect.rig.pending.isFresh then Float.ofNat effect.rig.blockSize
      else effect.store.read .blockSize := by
  have notRate : HostVariable.sampleRate ≠ .blockSize := HostVariable.noConfusion
  rw [startInit]
  dsimp only
  rw [Store.read_write_of_ne _ notRate]
  split
  · exact read_writeAll_head hosted (by simp) _
  · rfl

/-- What begins a cycle or a state leaves the settings of the host. -/
theorem settings_performAll {effect : Effect σ} {steps : List Step}
    (opens : ∀ step ∈ steps, step.isInner = false) :
    let after := effect.performAll steps
    after.rig.pending.isFresh = effect.rig.pending.isFresh ∧
      after.rig.blockSize = effect.rig.blockSize ∧
        after.rig.sampleRate = effect.rig.sampleRate := by
  induction steps generalizing effect with
  | nil => exact ⟨rfl, rfl, rfl⟩
  | cons step others ih =>
      rw [List.forall_mem_cons] at opens
      rcases ih opens.2 with ⟨fresh, size, rate⟩
      have own : (effect.perform step).rig.pending.isFresh = effect.rig.pending.isFresh ∧
          (effect.perform step).rig.blockSize = effect.rig.blockSize ∧
            (effect.perform step).rig.sampleRate = effect.rig.sampleRate := by
        cases step with
        | begin | passOn | clearInput | beginSerialize | endSerialize | restoreSliders =>
            exact ⟨rfl, rfl, rfl⟩
        | startInit | noteInit | noteMoves | noteSlider | tell | feed | run => cases opens.1
      exact ⟨fresh.trans own.1, size.trans own.2.1, rate.trans own.2.2⟩

theorem spares_of_opens (effect : Effect σ) {step : Step} (opens : step.isInner = false) :
    effect.Spares .blockSize step := by
  have quiet : step.program? = none := by
    cases step <;> first | rfl | cases opens
  exact spares_of_program? quiet (Step.blockSize_not_mem_writes (Step.leavesSize_of_isInner opens))

/-- Init that begins finds the sample rate of the host.  The block size of the host it finds
if it is the first one, and otherwise what has been there before. -/
theorem read_of_startInit {effect : Effect σ} (grounded : effect.Grounded config)
    {next : Moment σ} {before behind : List Step}
    (split : effect.stepsOf next = before ++ .startInit :: behind) :
    let ready := effect.performAll (before ++ [.startInit])
    ready.store.read .sampleRate = effect.rig.sampleRate ∧
      ready.store.read .blockSize =
        if effect.rig.pending.isFresh then Float.ofNat effect.rig.blockSize
        else effect.store.read .blockSize := by
  intro ready
  have opens := opens_of_startInit split
  rcases settings_performAll opens with ⟨fresh, size, rate⟩
  have kept : (effect.performAll before).store.read .blockSize = effect.store.read .blockSize :=
    read_performAll (fun step member => spares_of_opens effect (opens step member))
      HostVariable.noConfusion
  have hosted := (grounded_performAll grounded before).hosted
  have begins : ready = (effect.performAll before).startInit := performAll_append _ _ _
  rw [begins, read_sampleRate_startInit hosted, read_blockSize_startInit hosted, fresh, size, rate,
    kept]
  exact ⟨rfl, rfl⟩

/-! ## What is known of the block size -/

/-- If code has been told no block size yet, its first init is due; otherwise the variable still
holds the size that it was told last. -/
structure KnowsSize (effect : Effect σ) (told? : Option Nat) : Prop where
  fresh : effect.rig.pending.isFresh = told?.isNone
  due : told? = none → effect.rig.pending.init = true
  holds : ∀ size ∈ told?, effect.store.read .blockSize = Float.ofNat size

namespace KnowsSize

variable {told? : Option Nat}

theorem of_still {before after : Effect σ} (knows : before.KnowsSize told?)
    (fresh : after.rig.pending.isFresh = before.rig.pending.isFresh)
    (init : before.rig.pending.init = true → after.rig.pending.init = true)
    (read : after.store.read .blockSize = before.store.read .blockSize) :
    after.KnowsSize told? where
  fresh := fresh.trans knows.fresh
  due := fun none => init (knows.due none)
  holds := fun size told => read.trans (knows.holds size told)

variable {effect : Effect σ}

theorem perform (knows : effect.KnowsSize told?) (spare : effect.ProgramsSpare .blockSize)
    {step : Step} (leaves : step.leavesSize = true) :
    (effect.perform step).KnowsSize told? := by
  have spares : effect.Spares .blockSize step := by
    cases step with
    | run caller id => exact spare id
    | _ => exact Step.blockSize_not_mem_writes leaves
  refine knows.of_still ?_ ?_ (read_perform spares HostVariable.noConfusion)
  · cases step with
    | startInit | noteInit | tell => cases leaves
    | _ => rfl
  · cases step with
    | startInit | noteInit | tell => cases leaves
    | _ => exact id

theorem performAll (knows : effect.KnowsSize told?) (spare : effect.ProgramsSpare .blockSize)
    {steps : List Step} (leave : ∀ step ∈ steps, step.leavesSize = true) :
    (effect.performAll steps).KnowsSize told? := by
  induction steps generalizing effect with
  | nil => exact knows
  | cons step others ih =>
      rw [List.forall_mem_cons] at leave
      exact ih (knows.perform spare leave.1) (spare.of_keepsCode (keepsCode_perform effect step))
        leave.2

/-- Behind init the code has been told a size. -/
theorem dueInit (knows : effect.KnowsSize told?) (spare : effect.ProgramsSpare .blockSize)
    (hosted : effect.store.Hosted) (informed : effect.hasInfo = true) :
    (effect.performAll effect.dueInitSteps).KnowsSize (some (told?.getD effect.rig.blockSize)) := by
  have pending := pending_runDueInit informed
  rw [runDueInit_eq_performAll] at pending
  cases due : effect.rig.pending.init with
  | false =>
      have nothing : effect.dueInitSteps = [] := by simp [dueInitSteps, due]
      rw [nothing]
      cases told? with
      | none => exact absurd (knows.due rfl) (by simp [due])
      | some size => exact knows
  | true =>
      have steps : effect.dueInitSteps = .startInit ::
          (effect.initIds.map (Step.run cycleCaller) ++ [.noteInit]) := by
        simp [dueInitSteps, due, informed]
      rw [due, if_pos rfl] at pending
      refine ⟨by rw [pending]; rfl, fun none => absurd none (Option.some_ne_none _), ?_⟩
      intro size told
      have begun := spare.of_keepsCode (keepsCode_perform effect .startInit)
      have rest : ∀ step ∈ effect.initIds.map (Step.run cycleCaller) ++ [.noteInit],
          (effect.perform .startInit).Spares .blockSize step := by
        intro step member
        rw [List.mem_append, List.mem_map, List.mem_singleton] at member
        rcases member with ⟨id, _, rfl⟩ | rfl
        · exact begun id
        · exact List.not_mem_nil
      rw [steps, performAll_cons, read_performAll rest HostVariable.noConfusion]
      refine (read_blockSize_startInit hosted).trans ?_
      rw [← Option.some.inj told, knows.fresh]
      cases told? with
      | none => rfl
      | some size => exact knows.holds size rfl

theorem tell {size : Nat} (knows : effect.KnowsSize (some size)) (hosted : effect.store.Hosted)
    (plan : ChannelPlan) (frames : Nat) :
    (effect.perform (.tell plan frames)).KnowsSize (some frames) where
  fresh := knows.fresh
  due := fun none => absurd none (Option.some_ne_none _)
  holds := by
    intro other told
    rw [← Option.some.inj told]
    exact read_writeAll_head hosted (by simp) _

end KnowsSize

theorem leavesSize_sectionSteps (effect : Effect σ) (caller : Caller) (kind : SectionKind) :
    ∀ step ∈ effect.sectionSteps caller kind, step.leavesSize = true := by
  intro step member
  rcases List.mem_map.mp member with ⟨id, _, rfl⟩
  rfl

/-- Behind what tells the size of a block, no step of the cycle tells another one. -/
theorem exists_of_blockSteps (effect : Effect σ) (inputs outputs : List Channel) (frames : Nat) :
    ∃ others, effect.blockSteps inputs outputs frames =
      .tell (ChannelPlan.of effect.header inputs outputs) frames :: others ∧
        ∀ step ∈ others, step.leavesSize = true := by
  refine ⟨_, rfl, ?_⟩
  intro step member
  simp only [List.nil_append, List.append_eq, List.mem_append, List.mem_singleton] at member
  rcases member with (((slider | rfl) | block) | row) | rfl
  · split at slider
    · exact effect.leavesSize_sectionSteps cycleCaller .slider step slider
    · cases slider
  · rfl
  · exact effect.leavesSize_sectionSteps cycleCaller .block step block
  · simp only [frameSteps, List.mem_flatMap, List.mem_cons, List.not_mem_nil, or_false] at row
    rcases row with ⟨_, _, _, _, rfl | rfl⟩ <;> rfl
  · rfl

namespace KnowsSize

variable {told? : Option Nat} {effect : Effect σ}

theorem process (knows : effect.KnowsSize told?) (grounded : effect.Grounded config)
    (compiled : effect.isCompiled = true) (spare : effect.ProgramsSpare .blockSize)
    (precision : Precision) (inputs outputs : List Channel) (frames : Nat) :
    (effect.process precision inputs outputs frames).2.KnowsSize
      (if effect.rig.drawing.isBusy then told? else some frames) := by
  have informed := grounded.hasInfo compiled
  rw [process_eq_performAll, cycleSteps]
  cases busy : effect.rig.drawing.isBusy with
  | true =>
      rw [compiled]
      exact knows.performAll spare (by simp [Step.leavesSize])
  | false =>
      rcases exists_of_blockSteps effect inputs outputs frames with ⟨others, parts, leave⟩
      let lead := .begin :: effect.dueInitSteps ++ [.noteMoves]
      have readied :
          (effect.performAll lead).KnowsSize (some (told?.getD effect.rig.blockSize)) := by
        let begun := effect.perform .begin
        have keeps := keepsCode_perform effect .begin
        have hosted := (grounded_perform grounded .begin).hosted
        have inited := (knows.perform spare rfl).dueInit (spare.of_keepsCode keeps) hosted informed
        have moved := inited.perform
          (spare.of_keepsCode (keeps.trans (keepsCode_performAll begun begun.dueInitSteps)))
          (rfl : Step.noteMoves.leavesSize = true)
        have same : effect.performAll lead =
            (begun.performAll begun.dueInitSteps).perform .noteMoves :=
          performAll_append begun begun.dueInitSteps [.noteMoves]
        rw [same]
        exact moved
      have told := readied.tell (grounded_performAll grounded lead).hosted
        (ChannelPlan.of effect.header inputs outputs) frames
      have keeps := (keepsCode_performAll effect lead).trans
        (keepsCode_perform _ (.tell (ChannelPlan.of effect.header inputs outputs) frames))
      have done := told.performAll (spare.of_keepsCode keeps) leave
      rw [compiled, informed, Bool.not_true, if_neg Bool.false_ne_true, if_neg Bool.false_ne_true,
        if_pos rfl, if_neg Bool.false_ne_true, parts, performAll_append]
      exact done

theorem serialize (knows : effect.KnowsSize told?) (grounded : effect.Grounded config)
    (informed : effect.hasInfo = true) (spare : effect.ProgramsSpare .blockSize)
    (mode : SerializeMode) (data : ByteArray) :
    (effect.performAll (effect.serializeSteps mode data)).KnowsSize
      (if (effect.programId? .serialize).isSome then some (told?.getD effect.rig.blockSize)
        else told?) := by
  have begun := knows.perform spare (rfl : (Step.beginSerialize mode data).leavesSize = true)
  have keeps := keepsCode_perform effect (.beginSerialize mode data)
  rw [serializeSteps, if_pos informed]
  split
  · let inited := (effect.perform (.beginSerialize mode data)).performAll effect.dueInitSteps
    have told : inited.KnowsSize (some (told?.getD effect.rig.blockSize)) :=
      begun.dueInit (spare.of_keepsCode keeps) (grounded_perform grounded _).hosted informed
    have spares : inited.ProgramsSpare .blockSize :=
      spare.of_keepsCode (keeps.trans (keepsCode_performAll _ _))
    have last : ∀ step ∈ effect.sectionSteps serializeCaller .serialize ++ [.endSerialize],
        step.leavesSize = true :=
      List.forall_mem_append.mpr ⟨effect.leavesSize_sectionSteps serializeCaller .serialize,
        List.forall_mem_singleton.mpr rfl⟩
    have done := told.performAll spares last
    rw [List.cons_append, List.append_assoc, performAll_cons, performAll_append]
    exact done
  · exact begun.perform (spare.of_keepsCode keeps) (rfl : Step.endSerialize.leavesSize = true)

theorem requestInit (knows : effect.KnowsSize told?) : effect.requestInit.KnowsSize told? := by
  rw [Effect.requestInit]
  split
  · exact knows.of_still rfl (fun _ => rfl) rfl
  · exact knows

theorem setTime (knows : effect.KnowsSize told?) (time : TimeInfo) :
    (effect.setTime time).KnowsSize told? := by
  have requested (starts : Bool) :
      (if starts then effect.requestInit else effect).KnowsSize told? := by
    cases starts with
    | true => exact knows.requestInit
    | false => exact knows
  rw [Effect.setTime]
  exact (requested (effect.rig.time.state.starts time.state &&
    effect.store.read .noInit == 0.0)).of_still rfl id
      (Store.read_writeAll_of_not_mem (by simp) _)

theorem takeMidi (knows : effect.KnowsSize told?)
    (next? : MidiLog → Option (MidiEvent × MidiLog)) :
    (effect.takeMidi next?).2.KnowsSize told? := by
  rw [Effect.takeMidi]
  split
  · exact knows.of_still rfl id rfl
  · exact knows

theorem beginPass (knows : effect.KnowsSize told?) (surface : σ) :
    (effect.moment painter (.beginPass surface)).KnowsSize told? := by
  have ready : (effect.setUpDueDrawing painter surface).KnowsSize told? := by
    rw [setUpDueDrawing]
    split
    · exact knows.of_still rfl id (Store.read_writeAll_of_not_mem (by decide) _)
    · exact knows
  have others (wantsRetina : Bool) (surface : σ) :
      .blockSize ∉ (sizeValues painter wantsRetina surface).map Prod.fst := by
    simp only [sizeValues]
    generalize (if wantsRetina then painter.scale surface else 1.0) = scale
    split <;> simp
  exact ready.of_still rfl id (Store.read_writeAll_of_not_mem (others _ _) _)

/-- What is known of the block size follows every moment. -/
theorem moment (knows : effect.KnowsSize told?) (grounded : effect.Grounded config)
    (compiled : effect.isCompiled = true) (spare : effect.ProgramsSpare .blockSize)
    {next : Moment σ} (spares : next.Spares .blockSize) :
    (effect.moment painter next).KnowsSize (toldSizeAfter told? effect next) := by
  have informed := grounded.hasInfo compiled
  cases next with
  | cycle action =>
      cases action with
      | process precision inputs outputs frames =>
          exact knows.process grounded compiled spare precision inputs outputs frames
      | setSlider index value | setSliderFromDrawing index value =>
          simp only [Effect.moment, actInCycle, setSlider, setSliderFromDrawing, moveSlider]
          split
          · exact knows.of_still rfl id (Store.read_write_of_ne _ HostVariable.noConfusion _)
          · exact knows
      | fetchChanges | fetchAutomations | sendMidi event => exact knows.of_still rfl id rfl
      | setBlockSize size =>
          simp only [Effect.moment, actInCycle, setBlockSize]
          split
          · exact knows
          · exact requestInit (knows.of_still rfl id rfl)
      | setSampleRate rate =>
          simp only [Effect.moment, actInCycle, setSampleRate]
          split
          · exact knows
          · exact requestInit (knows.of_still rfl id rfl)
      | setTime time => exact knows.setTime time
      | receiveMidi => exact knows.takeMidi _
      | receiveMidiOnBus bus => exact knows.takeMidi _
      | sendTrigger index =>
          simp only [Effect.moment, actInCycle, sendTrigger]
          split
          · exact knows.of_still rfl id rfl
          · exact knows
  | saveState =>
      rw [Effect.moment, saveState_eq_performAll, saveSteps, if_pos compiled]
      exact knows.serialize grounded informed spare .writing ByteArray.empty
  | loadState state =>
      rw [Effect.moment, loadState_eq_performAll, loadSteps, compiled, informed]
      have restored := knows.perform spare
        (rfl : (Step.restoreSliders state.sliders).leavesSize = true)
      exact restored.serialize (grounded_perform grounded _) informed
        (spare.of_keepsCode (keepsCode_perform effect _)) .reading state.data
  | setKey key pressed =>
      simp only [Effect.moment, setKey]
      split
      · exact knows.of_still rfl id rfl
      · exact knows
  | setMouse modifiers x y buttons wheel sideWheel =>
      simp only [Effect.moment, setMouse]
      split
      · exact knows.of_still rfl id (Store.read_writeAll_of_not_mem (by simp) _)
      · exact knows
  | beginPass surface => exact knows.beginPass surface
  | endPass =>
      simp only [Effect.moment, takeDirty]
      split <;> exact knows.of_still rfl id rfl
  | assign cell value =>
      exact knows.of_still rfl id (Store.get_set_of_ne _ spares _)
  | call facts function args =>
      refine knows.of_still rfl id ?_
      exact (HostFunction.writes_run facts drawingCaller function args
        (effect.store, effect.around)).get spares (by decide)
  | writeItem position value =>
      refine knows.of_still rfl id ?_
      simp only [Effect.moment, Store.writeItem]
      split <;> rfl
  | setString number text =>
      refine knows.of_still rfl id ?_
      simp only [Effect.moment, Store.setString]
      split <;> rfl
  | writeRange address values | attach surface | changeDisk disk | paint change =>
      exact knows.of_still rfl id rfl

/-- What is known of the block size follows moments in a row. -/
theorem through (knows : effect.KnowsSize told?) (grounded : effect.Grounded config)
    (compiled : effect.isCompiled = true) (spare : effect.ProgramsSpare .blockSize)
    {moments : List (Moment σ)} (spares : ∀ next ∈ moments, next.Spares .blockSize) :
    (effect.through painter moments).KnowsSize
      (toldSizeThrough painter told? effect moments) := by
  induction moments generalizing effect told? with
  | nil => exact knows
  | cons next others ih =>
      rw [List.forall_mem_cons] at spares
      have keeps := keepsCode_moment painter effect next
      have still : (effect.moment painter next).isCompiled = true := by
        rw [isCompiled, keeps.sections]
        exact compiled
      exact ih (knows.moment grounded compiled spare spares.1) (grounded_moment grounded next) still
        (spare.of_keepsCode keeps) spares.2

/-- Compiled code has been told no block size yet. -/
theorem compile {options : CompileOptions}
    (compiled : (effect.compile options).effect.isCompiled = true) :
    (effect.compile options).effect.KnowsSize none := by
  rw [Effect.compile] at compiled ⊢
  split at compiled
  · split at compiled
    · exact ⟨rfl, fun _ => rfl, fun size told => absurd told (Option.not_mem_none size)⟩
    · cases compiled
  · cases compiled

end KnowsSize

/-! ## Init over a run -/

section Begin

variable {effect : Effect σ} {next : Moment σ} {before behind : List Step}

/-- Only moments that are their steps have init. -/
theorem moment_eq_performAll_of_startInit
    (split : effect.stepsOf next = before ++ .startInit :: behind) :
    effect.moment painter next = effect.performAll (effect.stepsOf next) := by
  have something : effect.stepsOf next ≠ [] := by simp [split]
  cases next with
  | cycle action =>
      cases action with
      | process precision inputs outputs frames =>
          exact process_eq_performAll effect precision inputs outputs frames
      | _ => exact absurd rfl something
  | saveState => exact saveState_eq_performAll effect
  | loadState state => exact loadState_eq_performAll effect state
  | _ => exact absurd rfl something

/-- Without compiled code init does not begin. -/
theorem isCompiled_of_startInit
    (split : effect.stepsOf next = before ++ .startInit :: behind) : effect.isCompiled = true := by
  cases compiled : effect.isCompiled with
  | true => rfl
  | false =>
      have member : .startInit ∈ effect.stepsOf next := by simp [split]
      have short : effect.stepsOf next ⊆ [.begin, .clearInput] := by
        cases next with
        | cycle action => cases action <;> simp [stepsOf, cycleSteps, compiled]
        | _ => simp [stepsOf, saveSteps, loadSteps, compiled]
      cases short member with
      | tail _ last => cases last with | tail _ none => cases none

end Begin

/-- Whenever the init sections begin, their code finds the sample rate of the host.  The block
size of the host it finds if it has not run since it was compiled; otherwise it finds what has
been there before.  If code leaves the variable alone, that is the number of frames of the last
cycle, or the block size that an earlier init was told. -/
theorem init_finds_sample_rate_and_last_size {effect : Effect σ}
    (reached : Reached painter config effect) (options : CompileOptions)
    (moments : List (Moment σ)) (next : Moment σ) :
    let start := (effect.compile options).effect
    let now := start.through painter moments
    ∀ before behind, now.stepsOf next = before ++ .startInit :: behind →
      let ready := now.performAll (before ++ [.startInit])
      now.moment painter next = ready.performAll behind ∧
      ready.store.read .sampleRate = now.rig.sampleRate ∧
      ready.store.read .blockSize =
        (if now.rig.pending.isFresh then Float.ofNat now.rig.blockSize
        else now.store.read .blockSize) ∧
      (start.ProgramsSpare .blockSize → (∀ moment ∈ moments, moment.Spares .blockSize) →
        ready.store.read .blockSize = Float.ofNat
          ((toldSizeThrough painter none start moments).getD now.rig.blockSize)) := by
  intro start now before behind split ready
  have grounded := (reached.compile options).grounded
  have keeps : start.rig.KeepsCode now.rig := keepsCode_through painter start moments
  rcases read_of_startInit ((reached.compile options).through moments).grounded split with
    ⟨rate, size⟩
  have does : now.moment painter next = ready.performAll behind := by
    rw [moment_eq_performAll_of_startInit split, split, ← performAll_append]
    simp
  refine ⟨does, rate, size, ?_⟩
  intro spare spares
  have compiled : start.isCompiled = true := by
    rw [isCompiled, ← keeps.sections]
    exact isCompiled_of_startInit split
  have knows : now.KnowsSize (toldSizeThrough painter none start moments) :=
    (KnowsSize.compile compiled).through grounded compiled spare spares
  rw [size, knows.fresh]
  cases told : toldSizeThrough painter none start moments with
  | none => rfl
  | some last => exact knows.holds last told

/-- Programs spare what those of a table spare, if the machine has no others. -/
theorem ProgramsSpare.of_tells {effect : Effect σ} {base : Nat} {table : List Program}
    (tells : effect.Tells base table)
    (listed : ∀ id, id ∈ effect.rig.code.programs → base ≤ id ∧ id - base < table.length)
    {name : HostVariable} (spare : ∀ program ∈ table, name.cell ∉ program.targets) :
    effect.ProgramsSpare name := by
  intro id
  by_cases held : id ∈ effect.rig.code.programs
  · rcases listed id held with ⟨above, inside⟩
    have own := tells (id - base) _ (List.getElem?_eq_getElem inside)
    rw [Nat.add_sub_cancel' above] at own
    rw [own]
    exact spare _ (List.getElem_mem inside)
  · rw [programOf, Std.HashMap.getD_eq_fallback held]
    exact List.not_mem_nil

/-- The first init runs where a state is saved, and is told a block size of 64.  It runs again
where the next state is saved, and finds the new sample rate and that size. -/
theorem init_finds_sample_rate_and_last_size_saved :
    let painter : Painter Unit :=
      { size := fun _ => (4, 3), scale := fun _ => 1.0, reset := fun surface => surface
        call := fun _ _ effect => (0.0, effect)
        takeDirty := fun surface => (true, surface) }
    let disk := Disk.empty.addFile ["script"] "@init\n@serialize\n".toUTF8
    let loaded := ((Effect.new disk {} : Effect Unit).load "/script" false).effect
    let start := (loaded.compile {}).effect
    let now := start.through painter
      [.cycle (.setBlockSize 64), .saveState, .cycle (.setSampleRate 48000.0)]
    Reached painter {} loaded ∧ start.ProgramsSpare .blockSize ∧
      ∃ behind, now.stepsOf .saveState =
        [.beginSerialize .writing ByteArray.empty] ++ .startInit :: behind ∧
        let ready := now.performAll ([.beginSerialize .writing ByteArray.empty] ++ [.startInit])
        ready.store.read .sampleRate = 48000.0 ∧ ready.store.read .blockSize = 64.0 := by
  intro painter disk loaded start now
  have confined : painter.Confined := fun _ _ _ => ⟨[], rfl⟩
  have reached : Reached painter {} loaded := (Reached.new disk).load "/script" false
  let base := loaded.rig.code.nextProgram
  let table := loaded.programs {}
  have closed : loaded.isClosed {} = true ∧ (loaded.compile {}).result.isOk = true ∧
      (∀ id ∈ start.heldPrograms, base ≤ id ∧ id - base < table.length) ∧
        ∀ program ∈ table, HostVariable.blockSize.cell ∉ program.targets := by
    decide +kernel
  have facts : now.isCompiled = true ∧ (now.programId? .serialize).isSome = true ∧
      now.rig.pending.init = true ∧ now.hasInfo = true ∧ now.rig.sampleRate = 48000.0 ∧
        Float.ofNat ((toldSizeThrough painter none start
          [.cycle (.setBlockSize 64), .saveState, .cycle (.setSampleRate 48000.0)]).getD
            now.rig.blockSize) = 64.0 := by
    decide +kernel
  rcases closed with ⟨closed, succeeded, listed, spare⟩
  rcases facts with ⟨compiled, serializes, due, informed, told, last⟩
  have tells : start.Tells base table :=
    tells_compile reached.grounded closed (result_of_isOk succeeded)
  have sound : start.Sound :=
    sound_after confined (sound_new disk {}) [.load "/script" false, .compile {}]
  have spare : start.ProgramsSpare .blockSize :=
    .of_tells tells (fun id member => listed id ((sound.live id).mp member)) spare
  have begins : ∃ behind, now.stepsOf .saveState =
      [.beginSerialize .writing ByteArray.empty] ++ .startInit :: behind := by
    rw [stepsOf, saveSteps, if_pos compiled, serializeSteps, if_pos serializes, dueInitSteps,
      due, informed, Bool.and_self, if_pos rfl]
    exact ⟨_, rfl⟩
  rcases begins with ⟨behind, begins⟩
  rcases init_finds_sample_rate_and_last_size reached {} _ .saveState _ behind begins with
    ⟨_, rate, _, size⟩
  refine ⟨reached, spare, behind, begins, rate.trans told, ?_⟩
  exact (size spare (by simp [Moment.Spares])).trans last

/-- Init that runs because the host has announced a block size of 256 finds the number of frames
of the last cycle. -/
theorem init_finds_frames_of_last_cycle :
    let painter : Painter Unit :=
      { size := fun _ => (4, 3), scale := fun _ => 1.0, reset := fun surface => surface
        call := fun _ _ effect => (0.0, effect)
        takeDirty := fun surface => (true, surface) }
    let source := "desc:Size\nslider1:0<0,999>A\n@init\nslider1 = samplesblock;\n"
    let disk := Disk.empty.addFile ["script"] source.toUTF8
    let loaded := ((Effect.new disk {} : Effect Unit).load "/script" false).effect
    let start := (loaded.compile {}).effect
    let cycle : Moment Unit := .cycle (.process .double [] [] 16)
    let now := start.through painter [cycle, .cycle (.setBlockSize 256)]
    Reached painter {} now ∧ now.rig.blockSize = 256 ∧
      ∃ before behind, now.stepsOf cycle = before ++ .startInit :: behind ∧
        (now.performAll (before ++ [.startInit])).store.read .blockSize = 16.0 := by
  intro painter source disk loaded start cycle now
  let told := (loaded.compileKnown {}).effect
  let base := loaded.rig.code.nextProgram
  let table := loaded.knownPrograms {}
  have begun : Reached painter {} loaded := (Reached.new disk).load "/script" false
  have known : loaded.isKnown {} = true ∧ (loaded.compileKnown {}).result.isOk = true ∧
      Covers base table (told.cycleSteps [] [] 16) := by
    decide +kernel
  rcases known with ⟨known, succeeded, covers⟩
  have equal := compile_eq_compileKnown begun known
  have same : start = told := congrArg Attempt.effect equal
  have tells : start.Tells base table := by
    apply tells_compile_known begun known
    rw [equal]
    exact result_of_isOk succeeded
  rw [← same] at covers
  let play (effect : Effect Unit) : Effect Unit :=
    (effect.evaluate base table (effect.cycleSteps [] [] 16)).2
  let played := (play told).setBlockSize 256
  have leads (effect : Effect Unit) : effect.through painter [cycle, .cycle (.setBlockSize 256)] =
      (effect.process .double [] [] 16).2.setBlockSize 256 := rfl
  have led : now = played := (leads start).trans (congrArg (setBlockSize · 256)
    ((process_of_tells tells covers .double).trans (congrArg play same)))
  have due : played.isCompiled = true ∧ played.rig.drawing.isBusy = false ∧
      played.rig.pending.init = true ∧ played.hasInfo = true ∧ played.rig.blockSize = 256 ∧
        (played.performAll [.begin, .startInit]).store.read .blockSize = 16.0 := by
    decide +kernel
  rcases due with ⟨compiled, idle, pending, informed, size, found⟩
  refine ⟨(begun.compile {}).through _, led ▸ size, [.begin], ?_⟩
  rw [led, stepsOf, cycleSteps, compiled, idle, dueInitSteps, pending, informed]
  exact ⟨_, rfl, found⟩

end Effect
end EffectHost

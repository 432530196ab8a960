import EffectHost.Proofs.Effect.RestoredSliders

/-!
# Passes that begin afresh

A drawing pass sets up the drawing side afresh for new code, for a new surface, and when it is
asked to.  Two flags note that this is due, and each is set and cleared in its own places, also
by passes that find nothing to run.  What has been done with the drawing side tells when it is
due: if since every pass that drew there was a reason.
-/

namespace EffectHost

/-- What is done with the drawing side of an effect. -/
inductive DrawingAction (σ : Type) where
  | install (program? : Option Nat)
  | take
  | attach (surface : σ)
  | requestInit (wantsRetina : Bool)
  | pass
  /-- Anything else happens, after which all but the drawing side is as in another effect. -/
  | meanwhile (other : Effect σ) (hosted : other.store.Hosted)

namespace DrawingAction

variable {σ : Type}

/-- A reason for the next pass to begin afresh. -/
def asksFresh : DrawingAction σ → Bool
  | .install _ | .take | .attach _ | .requestInit _ => true
  | .pass | .meanwhile _ _ => false

/-- The program that is there after an action. -/
def installs (before? : Option Nat) : DrawingAction σ → Option Nat
  | .install program? => program?
  | .take => none
  | _ => before?

/-- The program that was installed last, if it was not taken away. -/
def installed? (history : List (DrawingAction σ)) : Option Nat :=
  history.foldl installs none

def isAttach : DrawingAction σ → Bool
  | .attach _ => true
  | _ => false

/-- A surface was attached. -/
def attaches (history : List (DrawingAction σ)) : Bool :=
  history.any isAttach

/-- A pass after this history has a program to run and a surface to paint on. -/
def Draws (history : List (DrawingAction σ)) : Prop :=
  (installed? history).isSome = true ∧ attaches history = true

/-- Since every pass that drew, and so since the last one, there was a reason to begin afresh. -/
def FreshDue (history : List (DrawingAction σ)) : Prop :=
  ∀ earlier later, history = earlier ++ .pass :: later → Draws earlier →
    ∃ action ∈ later, action.asksFresh = true

/-! ## One more action -/

variable {history : List (DrawingAction σ)} {action : DrawingAction σ}

theorem installed?_concat (history : List (DrawingAction σ)) (action : DrawingAction σ) :
    installed? (history ++ [action]) = action.installs (installed? history) :=
  List.foldl_concat ..

theorem attaches_concat (history : List (DrawingAction σ)) (action : DrawingAction σ) :
    attaches (history ++ [action]) = (attaches history || action.isAttach) := by
  rw [attaches, List.any_append]
  simp [attaches]

theorem freshDue_nil : FreshDue ([] : List (DrawingAction σ)) := by
  intro earlier later empty
  simp at empty

/-- A pass in a history is the last action or an earlier one. -/
theorem cases_of_concat_eq {earlier later : List (DrawingAction σ)}
    (parted : history ++ [action] = earlier ++ .pass :: later) :
    (history = earlier ∧ action = .pass ∧ later = []) ∨
      ∃ between, later = between ++ [action] ∧ history = earlier ++ .pass :: between := by
  rcases List.eq_nil_or_concat later with rfl | ⟨between, last, rfl⟩
  · rcases List.append_inj' parted rfl with ⟨front, back⟩
    exact .inl ⟨front, List.singleton_inj.mp back, rfl⟩
  · rw [List.concat_eq_append, ← List.cons_append, ← List.append_assoc] at parted
    rcases List.append_inj' parted rfl with ⟨front, back⟩
    refine .inr ⟨between, ?_, front⟩
    rw [List.concat_eq_append, List.singleton_inj.mp back]

theorem freshDue_concat_of_asksFresh (asks : action.asksFresh = true) :
    FreshDue (history ++ [action]) := by
  intro earlier later parted _
  rcases cases_of_concat_eq parted with ⟨_, rfl, _⟩ | ⟨between, rfl, _⟩
  · cases asks
  · exact ⟨action, List.mem_append_right _ List.mem_cons_self, asks⟩

/-- What is no reason does not make it due. -/
theorem FreshDue.of_concat (due : FreshDue (history ++ [action]))
    (silent : action.asksFresh = false) : FreshDue history := by
  rintro earlier later rfl draws
  rcases due earlier (later ++ [action]) (by simp) draws with ⟨reason, member, asks⟩
  rcases List.mem_append.mp member with before | last
  · exact ⟨reason, before, asks⟩
  · rw [List.mem_singleton.mp last, silent] at asks
    cases asks

/-- Only a pass that draws settles what was due. -/
theorem FreshDue.concat (due : FreshDue history) (idle : action = .pass → ¬ Draws history) :
    FreshDue (history ++ [action]) := by
  intro earlier later parted draws
  rcases cases_of_concat_eq parted with ⟨rfl, last, _⟩ | ⟨between, rfl, before⟩
  · exact absurd draws (idle last)
  · rcases due earlier between before draws with ⟨reason, member, asks⟩
    exact ⟨reason, List.mem_append_left _ member, asks⟩

theorem freshDue_concat_iff (silent : action.asksFresh = false)
    (idle : action = .pass → ¬ Draws history) :
    FreshDue (history ++ [action]) ↔ FreshDue history :=
  ⟨fun due => due.of_concat silent, fun due => due.concat idle⟩

/-- A pass that draws settles what was due. -/
theorem not_freshDue_concat_pass (draws : Draws history) : ¬ FreshDue (history ++ [.pass]) := by
  intro due
  rcases due history [] rfl draws with ⟨_, none, _⟩
  cases none

end DrawingAction

namespace Effect

open DrawingAction

variable {σ : Type} {painter : Painter σ}

/-! ## While a pass goes on -/

/-- The drawing side is as before, but for what is painted on the surface, and no cells have come
or gone. -/
structure OnlyPaints (before after : Effect σ) : Prop where
  drawing : ∃ surface?, surface?.isSome = before.rig.drawing.surface?.isSome ∧
    after.rig.drawing = { before.rig.drawing with surface? := surface? }
  shape : Store.SameShape before.store after.store

namespace OnlyPaints

theorem of_eq {before after : Effect σ} (drawing : after.rig.drawing = before.rig.drawing)
    (shape : Store.SameShape before.store after.store) : OnlyPaints before after :=
  ⟨⟨_, rfl, drawing⟩, shape⟩

theorem of_onlyTells {before after : Effect σ} (tells : OnlyTells before after) :
    OnlyPaints before after :=
  of_eq tells.drawing tells.shape

theorem refl (effect : Effect σ) : OnlyPaints effect effect :=
  of_eq rfl (.refl _)

theorem trans {first second third : Effect σ} (left : OnlyPaints first second)
    (right : OnlyPaints second third) : OnlyPaints first third := by
  rcases left.drawing with ⟨_, kept, drawing⟩
  rcases right.drawing with ⟨surface?, still, drawn⟩
  refine ⟨⟨surface?, ?_, ?_⟩, left.shape.trans right.shape⟩
  · rw [still, drawing, kept]
  · rw [drawn, drawing]

theorem isBusy {before after : Effect σ} (paints : OnlyPaints before after) :
    after.rig.drawing.isBusy = before.rig.drawing.isBusy := by
  rcases paints.drawing with ⟨_, _, drawing⟩
  rw [drawing]

end OnlyPaints

/-- A cycle that finds the machine in use leaves the drawing side alone. -/
theorem onlyPaints_process {effect : Effect σ} (busy : effect.rig.drawing.isBusy = true)
    (precision : Precision) (inputs outputs : List Channel) (frames : Nat) :
    OnlyPaints effect (effect.process precision inputs outputs frames).2 := by
  have taken : effect.beginCycle.rig.drawing.isBusy = true := busy
  rw [process, taken]
  split
  · exact .of_eq rfl (Store.sameShape_set _ _ _)
  · exact .of_eq rfl (Store.sameShape_set _ _ _)

theorem onlyPaints_actInCycle {effect : Effect σ} (busy : effect.rig.drawing.isBusy = true)
    (action : CycleAction) : OnlyPaints effect (effect.actInCycle action) := by
  cases action with
  | process precision inputs outputs frames =>
      exact onlyPaints_process busy precision inputs outputs frames
  | sendMidi event => exact .of_eq rfl (.refl _)
  | _ => exact .of_onlyTells (onlyTells_actInCycle effect _ rfl)

/-- A state is saved or restored only where no section runs for it. -/
theorem onlyPaints_serialize {effect : Effect σ}
    (nothing : ¬ (effect.programId? .serialize).isSome = true) (mode : SerializeMode)
    (data : ByteArray) : OnlyPaints effect (effect.serialize mode data).2 := by
  rw [serialize_of_nothing (Option.not_isSome_iff_eq_none.mp nothing)]
  exact .of_eq rfl (.refl _)

theorem onlyPaints_actInPass {effect : Effect σ} (busy : effect.rig.drawing.isBusy = true)
    (action : PassAction σ) : OnlyPaints effect (effect.actInPass action) := by
  cases action with
  | cycle action => exact onlyPaints_actInCycle busy action
  | saveState =>
      rw [actInPass]
      split
      · exact .refl effect
      · next nothing =>
          rw [saveState]
          split
          · dsimp only
            split <;> exact onlyPaints_serialize nothing .writing ByteArray.empty
          · exact .refl effect
  | loadState state =>
      rw [actInPass]
      split
      · exact .refl effect
      · next nothing =>
          rw [loadState]
          split
          · let reset := defaultSliders effect.store effect.header
            let moved := { effect with store := writeSliders reset effect.header state.sliders }
            let noted := moved.updatePending fun pending => { pending with slider := true }
            have restored : OnlyPaints effect noted := .of_eq rfl
              ((sameShape_defaultSliders _ _).trans (sameShape_writeSliders reset _ _))
            have unread : ¬ (noted.programId? .serialize).isSome = true := nothing
            exact restored.trans (onlyPaints_serialize unread .reading state.data)
          · exact .refl effect
  | assign cell value => exact .of_eq rfl (Store.sameShape_set _ _ _)
  | writeRange address values => exact .of_eq rfl (Store.sameShape_writeRange _ _ _)
  | setString id text => exact .of_eq rfl (Store.sameShape_setString _ _ _)
  | paint change => exact ⟨⟨_, Option.isSome_map, rfl⟩, .refl _⟩

/-- A drawing function only paints. -/
theorem onlyPaints_call (confined : painter.Confined) (name : String) (args : List Arg)
    {effect : Effect σ} (busy : effect.rig.drawing.isBusy = true) :
    OnlyPaints effect (painter.call name args effect).2 := by
  rcases confined name args effect with ⟨actions, performed⟩
  rw [performed]
  clear performed
  induction actions generalizing effect with
  | nil => exact .refl effect
  | cons action others ih =>
      have first := onlyPaints_actInPass busy action
      exact first.trans (ih (first.isBusy.trans busy))

theorem preserves_onlyPaints (confined : painter.Confined) (facts : Facts) {start : Effect σ}
    (busy : start.rig.drawing.isBusy = true) :
    (drawingHost facts painter).Preserves fun state =>
      OnlyPaints start ⟨state.1, state.2.1, state.2.2⟩ where
  set := fun _ _ _ _ before => before.trans (.of_eq rfl (Store.sameShape_set _ _ _))
  writeItem := fun _ _ _ _ before => before.trans (.of_eq rfl (Store.sameShape_writeItem _ _ _))
  call := by
    intro name args state before
    rcases state with ⟨store, around, rig⟩
    rw [drawingHost_call]
    split
    · next function _ =>
        have framed := HostFunction.frame_run facts drawingCaller function args (store, around)
        exact before.trans (.of_eq rfl framed.shape)
    · split
      · exact before.trans (onlyPaints_call confined name args (before.isBusy.trans busy))
      · exact before

/-- Between the marks at both ends, a drawing program only paints. -/
theorem onlyPaints_runDrawing (confined : painter.Confined) {effect : Effect σ}
    (idle : effect.rig.drawing.isBusy = false) (program : Program) :
    OnlyPaints effect (effect.runDrawing painter program) := by
  let busy := effect.setBusy true
  have marked : busy.rig.drawing.isBusy = true := rfl
  have ran := Code.run_preserves (preserves_onlyPaints confined effect.facts marked) program
    (busy.store, busy.around, busy.rig) (.refl busy)
  rcases ran.drawing with ⟨surface?, kept, drawing⟩
  have free : (effect.runDrawing painter program).rig.drawing =
      { busy.rig.drawing with surface? := surface?, isBusy := false } :=
    congrArg (fun drawing : Drawing σ => { drawing with isBusy := false }) drawing
  refine ⟨⟨surface?, kept, ?_⟩, ran.shape⟩
  rw [free, ← idle]
  rfl

theorem onlyPaints_takeDirty (painter : Painter σ) (effect : Effect σ) :
    OnlyPaints effect (effect.takeDirty painter).2 := by
  rw [takeDirty]
  split
  · next surface attached => exact ⟨⟨_, by rw [attached]; rfl, rfl⟩, .refl _⟩
  · exact .refl effect

/-! ## How a pass begins -/

/-- The effect when the code of a pass begins to run. -/
def beginPass (effect : Effect σ) (painter : Painter σ) (surface : σ) : Effect σ :=
  let ready := effect.setUpDueDrawing painter surface
  ready.tellSize painter (ready.rig.drawing.surface?.getD surface)

theorem runPass_of_some {effect : Effect σ} {id : Nat} {surface : σ}
    (installed : effect.rig.drawing.program? = some id)
    (attached : effect.rig.drawing.surface? = some surface) :
    effect.runPass painter =
      ((effect.beginPass painter surface).runDrawing painter (effect.programOf id)).takeDirty
        painter := by
  have program : effect.program? .gfx = some (effect.programOf id) :=
    congrArg (Option.map effect.programOf) installed
  rw [runPass, program, attached]
  rfl

/-- A pass begins afresh on a surface: the drawing and mouse variables get their first values,
the keyboard is cleared, and the surface is reset.  Then the script is told the size of the
surface, and that is all. -/
structure BeginsAfresh (painter : Painter σ) (surface : σ) (before begun : Effect σ) : Prop where
  store : ∃ reset : Store,
    (∀ entry ∈ freshValues, reset.read entry.1 = entry.2) ∧
    (∀ cell, cell ∉ freshValues.map (fun entry => entry.1.cell) →
      reset.get cell = before.store.get cell) ∧
    reset.memory = before.store.memory ∧ reset.strings = before.store.strings ∧
    begun.store = reset.writeAll
      (sizeValues painter before.rig.drawing.wantsRetina (painter.reset surface))
  keyboard : begun.around = { before.around with keyboard := { waiting := [], down := [] } }
  surface : begun.rig = { before.rig with
    drawing := { before.rig.drawing with
      surface? := some (painter.reset surface), isReady := true, initRequested := false } }

/-- Telling the size of a surface changes no other variable. -/
theorem read_writeAll_sizeValues {name : HostVariable} {wantsRetina : Bool}
    (other : name ∉ [HostVariable.gfxRetina, .gfxWidth, .gfxHeight]) (store : Store)
    (surface : σ) :
    (store.writeAll (sizeValues painter wantsRetina surface)).read name = store.read name := by
  apply Store.read_writeAll_of_not_mem
  rw [sizeValues]
  generalize (if wantsRetina then painter.scale surface else 1.0) = scale
  split
  · exact other
  · exact mt (List.mem_cons_of_mem _) other

namespace BeginsAfresh

variable {surface : σ} {before begun : Effect σ}

theorem read_of_mem (afresh : BeginsAfresh painter surface before begun) {name : HostVariable}
    {value : Float} (member : (name, value) ∈ freshValues)
    (other : name ∉ [HostVariable.gfxRetina, .gfxWidth, .gfxHeight]) :
    begun.store.read name = value := by
  rcases afresh.store with ⟨reset, fresh, _, _, _, told⟩
  rw [told, read_writeAll_sizeValues other]
  exact fresh _ member

/-- Where the program of such a pass begins, the destination is the screen, and the colours are at
one.  The wheels and buttons of the mouse are at zero, and so is what else there is to drawing, but
for the size. -/
theorem read_begun (afresh : BeginsAfresh painter surface before begun) :
    begun.store.read .gfxDestination = -1.0 ∧
    (∀ colour ∈ [HostVariable.gfxRed, .gfxGreen, .gfxBlue, .gfxAlpha, .gfxAlpha2],
      begun.store.read colour = 1.0) ∧
    ∀ rest ∈ [HostVariable.gfxX, .gfxY, .gfxMode, .gfxTextHeight, .gfxClear, .mouseWheel,
        .mouseSideWheel, .mouseButtons],
      begun.store.read rest = 0.0 := by
  refine ⟨afresh.read_of_mem (by simp [freshValues]) (by decide), ?_, ?_⟩
  · intro colour listed
    apply afresh.read_of_mem
    · fin_cases listed <;> simp [freshValues]
    · fin_cases listed <;> decide
  · intro rest listed
    apply afresh.read_of_mem
    · fin_cases listed <;> simp [freshValues]
    · fin_cases listed <;> decide

end BeginsAfresh

theorem nodup_freshValues : (freshValues.map Prod.fst).Nodup := by
  decide

theorem beginsAfresh_beginPass (painter : Painter σ) {effect : Effect σ}
    (hosted : effect.store.Hosted)
    (due : (effect.rig.drawing.initRequested || !effect.rig.drawing.isReady) = true)
    (surface : σ) : BeginsAfresh painter surface effect (effect.beginPass painter surface) := by
  have setUp : effect.setUpDueDrawing painter surface = effect.setUpDrawing painter surface := by
    rw [setUpDueDrawing]
    exact if_pos due
  rw [beginPass, setUp]
  rcases Store.writeAll_keeps effect.store freshValues with ⟨memory, strings⟩
  refine ⟨⟨effect.store.writeAll freshValues, ?_, ?_, memory, strings, rfl⟩, rfl, rfl⟩
  · intro entry member
    exact Store.read_writeAll_of_mem hosted nodup_freshValues member
  · intro cell absent
    exact Store.get_writeAll_of_not_mem absent effect.store

theorem beginPass_of_not_due {effect : Effect σ} {surface : σ}
    (settled : ¬ (effect.rig.drawing.initRequested || !effect.rig.drawing.isReady) = true)
    (attached : effect.rig.drawing.surface? = some surface) :
    effect.beginPass painter surface = effect.tellSize painter surface := by
  have setUp : effect.setUpDueDrawing painter surface = effect := by
    rw [setUpDueDrawing]
    exact if_neg settled
  rw [beginPass, setUp, attached]
  rfl

/-- However a pass begins, both flags are down. -/
theorem exists_drawing_beginPass (painter : Painter σ) {effect : Effect σ} {surface : σ}
    (hosted : effect.store.Hosted) (attached : effect.rig.drawing.surface? = some surface) :
    ∃ current, (effect.beginPass painter surface).rig.drawing = { effect.rig.drawing with
      surface? := some current, isReady := true, initRequested := false } := by
  by_cases due : (effect.rig.drawing.initRequested || !effect.rig.drawing.isReady) = true
  · exact ⟨painter.reset surface,
      congrArg Rig.drawing (beginsAfresh_beginPass painter hosted due surface).surface⟩
  · refine ⟨surface, ?_⟩
    rw [beginPass_of_not_due due attached]
    rw [Bool.not_eq_true, Bool.or_eq_false_iff, Bool.not_eq_false'] at due
    rw [← attached, ← due.2, ← due.1]
    rfl

theorem hosted_beginPass {effect : Effect σ} (hosted : effect.store.Hosted) (surface : σ) :
    (effect.beginPass painter surface).store.Hosted := by
  have ready : (effect.setUpDueDrawing painter surface).store.Hosted := by
    rw [setUpDueDrawing]
    split
    · exact hosted.of_sameShape (Store.sameShape_writeAll _ _)
    · exact hosted
  exact ready.of_sameShape (Store.sameShape_writeAll _ _)

/-! ## Every history -/

/-- Carry out a drawing action. -/
def actDrawing (painter : Painter σ) (effect : Effect σ) : DrawingAction σ → Effect σ
  | .install program? => effect.updateDrawing fun drawing => (drawing.install program?).2
  | .take => effect.updateDrawing fun drawing => drawing.take.2
  | .attach surface => effect.attach surface
  | .requestInit wantsRetina => effect.updateDrawing fun drawing => drawing.requestInit wantsRetina
  | .pass => (effect.runPass painter).2
  | .meanwhile other _ =>
    { other with rig := { other.rig with drawing := effect.rig.drawing } }

/-- Carry out drawing actions one after another. -/
def afterDrawing (effect : Effect σ) (painter : Painter σ) (history : List (DrawingAction σ)) :
    Effect σ :=
  history.foldl (actDrawing painter) effect

/-- What the drawing side knows of its history. -/
structure Tracks (history : List (DrawingAction σ)) (effect : Effect σ) : Prop where
  program : effect.rig.drawing.program? = installed? history
  surface : effect.rig.drawing.surface?.isSome = attaches history
  due : (effect.rig.drawing.initRequested || !effect.rig.drawing.isReady) = true ↔
    FreshDue history
  hosted : effect.store.Hosted
  idle : effect.rig.drawing.isBusy = false

variable {history : List (DrawingAction σ)} {effect : Effect σ}

/-- A pass draws where the drawing side has a program and a surface. -/
theorem Tracks.exists_of_draws (tracks : Tracks history effect) (draws : Draws history) :
    ∃ id surface, effect.rig.drawing.program? = some id ∧
      effect.rig.drawing.surface? = some surface := by
  rcases Option.isSome_iff_exists.mp draws.1 with ⟨id, installed⟩
  rcases Option.isSome_iff_exists.mp (tracks.surface.trans draws.2) with ⟨surface, attached⟩
  exact ⟨id, surface, tracks.program.trans installed, attached⟩

theorem Tracks.runPass_of_not_draws (tracks : Tracks history effect) (idle : ¬ Draws history) :
    effect.runPass painter = (false, effect) := by
  rw [runPass]
  split
  · next program surface running attached =>
      have installed : (effect.rig.drawing.program?.map effect.programOf).isSome = true :=
        Option.isSome_iff_exists.mpr ⟨program, running⟩
      rw [Option.isSome_map, tracks.program] at installed
      have attaches : attaches history = true := by
        rw [← tracks.surface, attached]
        rfl
      exact absurd ⟨installed, attaches⟩ idle
  · rfl

/-- After a pass that draws, nothing is due. -/
theorem Tracks.concat_pass (confined : painter.Confined) (tracks : Tracks history effect)
    (draws : Draws history) : Tracks (history ++ [.pass]) (effect.runPass painter).2 := by
  rcases tracks.exists_of_draws draws with ⟨id, surface, installed, attached⟩
  rcases exists_drawing_beginPass painter tracks.hosted attached with ⟨current, begun⟩
  have free : (effect.beginPass painter surface).rig.drawing.isBusy = false := by
    rw [begun]
    exact tracks.idle
  have paints := (onlyPaints_runDrawing confined free (effect.programOf id)).trans
    (onlyPaints_takeDirty painter _)
  rcases paints.drawing with ⟨surface?, kept, done⟩
  rw [begun] at kept done
  rw [runPass_of_some installed attached]
  refine ⟨?_, ?_, ?_, ?_, paints.isBusy.trans free⟩
  · rw [done, installed?_concat]
    exact tracks.program
  · rw [done, attaches_concat, draws.2]
    exact kept
  · rw [done]
    exact iff_of_false nofun (not_freshDue_concat_pass draws)
  · exact (hosted_beginPass tracks.hosted surface).of_sameShape paints.shape

/-- Each action keeps track. -/
theorem Tracks.concat (confined : painter.Confined) (tracks : Tracks history effect)
    (action : DrawingAction σ) :
    Tracks (history ++ [action]) (effect.actDrawing painter action) := by
  have installed := installed?_concat history action
  have attached : action.isAttach = false →
      effect.rig.drawing.surface?.isSome = attaches (history ++ [action]) := by
    intro other
    rw [attaches_concat, other, Bool.or_false]
    exact tracks.surface
  cases action with
  | install program? =>
      refine ⟨installed.symm, attached rfl, ?_, tracks.hosted, tracks.idle⟩
      exact iff_of_true (Bool.or_true _) (freshDue_concat_of_asksFresh rfl)
  | take =>
      refine ⟨installed.symm, attached rfl, ?_, tracks.hosted, tracks.idle⟩
      exact iff_of_true (Bool.or_true _) (freshDue_concat_of_asksFresh rfl)
  | attach surface =>
      refine ⟨tracks.program.trans installed.symm, ?_, ?_, tracks.hosted, tracks.idle⟩
      · rw [attaches_concat, isAttach, Bool.or_true]
        rfl
      · exact iff_of_true rfl (freshDue_concat_of_asksFresh rfl)
  | requestInit wantsRetina =>
      refine ⟨tracks.program.trans installed.symm, attached rfl, ?_, tracks.hosted, tracks.idle⟩
      exact iff_of_true rfl (freshDue_concat_of_asksFresh rfl)
  | pass =>
      by_cases draws : Draws history
      · exact tracks.concat_pass confined draws
      · rw [actDrawing, tracks.runPass_of_not_draws draws]
        refine ⟨tracks.program.trans installed.symm, attached rfl, ?_, tracks.hosted, tracks.idle⟩
        exact tracks.due.trans (freshDue_concat_iff rfl fun _ => draws).symm
  | meanwhile other hosted =>
      refine ⟨tracks.program.trans installed.symm, attached rfl, ?_, hosted, tracks.idle⟩
      have noPass : DrawingAction.meanwhile other hosted ≠ .pass := nofun
      exact tracks.due.trans (freshDue_concat_iff rfl fun same => absurd same noPass).symm

/-- Whatever was done with it, the drawing side has kept track. -/
theorem tracks_afterDrawing (confined : painter.Confined) {start : Effect σ}
    (blank : start.rig.drawing = {}) (hosted : start.store.Hosted)
    (history : List (DrawingAction σ)) :
    Tracks history (start.afterDrawing painter history) := by
  induction history using List.reverseRecOn with
  | nil =>
      refine ⟨?_, ?_, ?_, hosted, ?_⟩ <;> rw [afterDrawing, List.foldl_nil, blank]
      · rfl
      · rfl
      · exact iff_of_true rfl freshDue_nil
  | append_singleton history action ih =>
      rw [afterDrawing, List.foldl_concat, ← afterDrawing]
      exact ih.concat confined action

/-- Whatever was done with the drawing side, a pass runs the program that was installed last on the
surface, if there are both, and else does nothing at all.  It begins afresh if since the last pass
that drew there was a reason to, and else just tells the size of the surface. -/
theorem passes_begin_afresh_when_asked (confined : painter.Confined) {start : Effect σ}
    (blank : start.rig.drawing = {}) (hosted : start.store.Hosted)
    (history : List (DrawingAction σ)) :
    let effect := start.afterDrawing painter history
    (¬ Draws history → effect.runPass painter = (false, effect)) ∧
    (Draws history → ∃ id surface begun, installed? history = some id ∧
      effect.rig.drawing.surface? = some surface ∧
      effect.runPass painter =
        (begun.runDrawing painter (effect.programOf id)).takeDirty painter ∧
      (FreshDue history → BeginsAfresh painter surface effect begun) ∧
      (¬ FreshDue history → begun = effect.tellSize painter surface)) := by
  intro effect
  have tracks : Tracks history effect := tracks_afterDrawing confined blank hosted history
  constructor
  · exact tracks.runPass_of_not_draws
  · intro draws
    rcases tracks.exists_of_draws draws with ⟨id, surface, installed, attached⟩
    refine ⟨id, surface, effect.beginPass painter surface, tracks.program.symm.trans installed,
      attached, runPass_of_some installed attached, ?_, ?_⟩
    · intro due
      exact beginsAfresh_beginPass painter tracks.hosted (tracks.due.mpr due) surface
    · intro settled
      exact beginPass_of_not_due (mt tracks.due.mp settled) attached

/-- A surface that counts how often it was reset.  The pass in front of the program does nothing,
the one behind it begins afresh, and the next one does so if that is asked for. -/
theorem passes_begin_afresh_when_asked_twice :
    let painter : Painter Nat :=
      { size := fun _ => (4, 3), scale := fun _ => 2.0, reset := fun resets => resets + 1
        call := fun _ _ effect => (0.0, effect)
        takeDirty := fun resets => (true, resets) }
    let start : Effect Nat := Effect.new Disk.empty {}
    let drawn : List (DrawingAction Nat) := [.attach 0, .pass, .install (some 7), .pass]
    let settled := start.afterDrawing painter drawn
    let asked := start.afterDrawing painter (drawn ++ [.requestInit true])
    start.rig.drawing = {} ∧ start.store.Hosted ∧ painter.Confined ∧
      settled.rig.drawing.surface? = some 1 ∧ asked.rig.drawing.surface? = some 1 ∧
      settled.runPass painter = ((settled.tellSize painter 1).runDrawing painter
        (settled.programOf 7)).takeDirty painter ∧
      ∃ begun, asked.runPass painter =
        (begun.runDrawing painter (asked.programOf 7)).takeDirty painter ∧
        BeginsAfresh painter 1 asked begun ∧ begun.store.read .gfxDestination = -1.0 := by
  intro painter start drawn settled asked
  have confined : painter.Confined := fun _ _ _ => ⟨[], rfl⟩
  have blank : start.rig.drawing = {} := rfl
  have hosted : start.store.Hosted := Store.hosted_hosted
  have draws : Draws (drawn ++ [.requestInit true]) := ⟨rfl, rfl⟩
  have before : Draws [.attach 0, .pass, .install (some 7)] := ⟨rfl, rfl⟩
  -- The program is none that the machine knows, so that only the reset changes the surface.
  have once : settled.rig.drawing.surface? = some 1 := by
    let installed := start.afterDrawing painter [.attach 0, .pass, .install (some 7)]
    have nothing : installed.programOf 7 = [] := Std.HashMap.getD_empty
    have drew : installed.runPass painter = ((installed.beginPass painter 0).runDrawing painter
        (installed.programOf 7)).takeDirty painter := runPass_of_some rfl rfl
    rw [nothing] at drew
    exact congrArg (fun done => done.2.rig.drawing.surface?) drew
  rcases (passes_begin_afresh_when_asked confined blank hosted drawn).2 ⟨rfl, rfl⟩ with
    ⟨id, surface, begun, installed, attached, ran, _, kept⟩
  rcases (passes_begin_afresh_when_asked confined blank hosted (drawn ++ [.requestInit true])).2
    draws with ⟨again, canvas, renewed, found, there, runs, afresh, _⟩
  cases installed
  cases found
  cases once.symm.trans attached
  cases once.symm.trans there
  rw [kept (not_freshDue_concat_pass before)] at ran
  have begins := afresh (freshDue_concat_of_asksFresh rfl)
  exact ⟨blank, hosted, confined, once, once, ran, renewed, runs, begins, begins.read_begun.1⟩

end Effect
end EffectHost

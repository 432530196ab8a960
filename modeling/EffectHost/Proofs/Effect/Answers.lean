import EffectHost.Proofs.Effect.Actions

/-!
# What a host learns

A host learns of an effect what its actions return and what it can look at between them: the
values of sliders, the masks, the latency, and whether there is code.  Drawing functions are
run by the surface of the host.  They know an effect through the values of their arguments,
memory and strings, and can do to it what is possible during a pass.  A plan tells what such
a function does one step after another, where a step may depend on all that was learnt
before.
-/

namespace EffectHost

/-- What an action returns. -/
inductive Answer where
  | nothing
  | flag (holds : Bool)
  | channels (outputs : List Channel)
  | mask (announced : Mask)
  | event (taken? : Option MidiEvent)
  | state (saved? : Option EffectState)
  | attempt (result : Except Failure Unit) (reports : List Report)

/-- What a host sees without an action. -/
structure HostView where
  /-- The values of all sliders. -/
  sliders : List Float
  masks : SliderMasks
  latency : Float
  latencyChannels : Nat × Nat
  delaysMidi : Bool
  script? : Option LoadedScript
  isCompiled : Bool
  /-- There is a drawing program. -/
  draws : Bool
  wantsRetina : Bool

namespace Effect

variable {σ : Type}

/-- What a cycle action returns. -/
def answerInCycle (effect : Effect σ) : CycleAction → Answer
  | .process precision inputs outputs frames =>
    .channels (effect.process precision inputs outputs frames).1
  | .fetchChanges => .mask effect.fetchChanges.1
  | .fetchAutomations => .mask effect.fetchAutomations.1
  | .sendMidi event => .flag (effect.sendMidi event).1
  | .receiveMidi => .event effect.receiveMidi.1
  | .receiveMidiOnBus bus => .event (effect.receiveMidiOnBus bus).1
  | .sendTrigger index => .flag (effect.sendTrigger index).1
  | .setSlider _ _ | .setSliderFromDrawing _ _ | .setBlockSize _ | .setSampleRate _ |
    .setTime _ => .nothing

/-- What an action of the host returns. -/
def answer (painter : Painter σ) (effect : Effect σ) : HostAction σ → Answer
  | .cycle action => effect.answerInCycle action
  | .load path ignoreImports =>
    let attempt := effect.load path ignoreImports
    .attempt attempt.result attempt.reports
  | .compile options =>
    let attempt := effect.compile options
    .attempt attempt.result attempt.reports
  | .saveState => .state effect.saveState.1
  | .loadState state => .flag (effect.loadState state).1
  | .draw => .flag (effect.draw painter).1
  | .unloadCode | .unload | .attach _ | .setKey _ _ | .setMouse _ _ _ _ _ _ | .changeDisk _ =>
    .nothing

/-- What actions in a row return. -/
def answers (painter : Painter σ) : Effect σ → List (HostAction σ) → List Answer
  | _, [] => []
  | effect, action :: others =>
    effect.answer painter action :: (effect.act painter action).answers painter others

theorem answers_append (painter : Painter σ) (effect : Effect σ)
    (first second : List (HostAction σ)) :
    effect.answers painter (first ++ second) =
      effect.answers painter first ++ (effect.after painter first).answers painter second := by
  induction first generalizing effect with
  | nil => rfl
  | cons action others ih => exact congrArg (effect.answer painter action :: ·) (ih _)

/-- What the host sees. -/
def view (effect : Effect σ) : HostView where
  sliders := (List.finRange sliderSlots).map fun slot => effect.store.read (.slider slot)
  masks := effect.around.masks
  latency := effect.latency
  latencyChannels := effect.latencyChannels
  delaysMidi := effect.delaysMidi
  script? := effect.rig.script?
  isCompiled := effect.isCompiled
  draws := (effect.program? .gfx).isSome
  wantsRetina := effect.rig.drawing.wantsRetina

/-- What saving a state during a pass returns. -/
def answerSaveInPass (effect : Effect σ) : Option EffectState :=
  if (effect.programId? .serialize).isSome then none else effect.saveState.1

/-- What restoring a state during a pass returns. -/
def answerLoadInPass (effect : Effect σ) (state : EffectState) : Bool :=
  if (effect.programId? .serialize).isSome then false else (effect.loadState state).1

end Effect

/-! ## Plans of drawing functions -/

/-- What a drawing function can look at. -/
structure PassView (σ : Type) where
  /-- The present values of those arguments that are variables. -/
  ofArgs : List (Option Float)
  memory : Memory
  text? : Float → Option String
  surface? : Option σ

/-- What a drawing function does. -/
inductive PainterPlan (σ : Type) where
  /-- Return a value. -/
  | done (value : Float)
  | look (next : PassView σ → PainterPlan σ)
  /-- Write to the variable of an argument. -/
  | assign (position : Nat) (value : Float) (next : PainterPlan σ)
  | writeRange (address : Nat) (values : Array Float) (next : PainterPlan σ)
  | setString (id : Float) (text : String) (next : PainterPlan σ)
  | paint (change : σ → σ) (next : PainterPlan σ)
  /-- Meanwhile the audio side does something. -/
  | cycle (action : CycleAction) (next : Answer → PainterPlan σ)
  | saveState (next : Option EffectState → PainterPlan σ)
  | loadState (state : EffectState) (next : Bool → PainterPlan σ)

namespace Effect

variable {σ : Type}

/-- What a function with some arguments can look at. -/
def passView (effect : Effect σ) (args : List Arg) : PassView σ where
  ofArgs := args.map fun arg => arg.cell?.map effect.store.get
  memory := effect.store.memory
  text? := effect.store.strings.find?
  surface? := effect.rig.drawing.surface?

end Effect

namespace PainterPlan

variable {σ : Type}

/-- Carry out a plan. -/
def run (args : List Arg) : PainterPlan σ → Effect σ → Float × Effect σ
  | .done value, effect => (value, effect)
  | .look next, effect => (next (effect.passView args)).run args effect
  | .assign position value next, effect =>
    next.run args { effect with store := assignArg args position effect.store value }
  | .writeRange address values next, effect =>
    next.run args (effect.actInPass (.writeRange address values))
  | .setString id text next, effect => next.run args (effect.actInPass (.setString id text))
  | .paint change next, effect => next.run args (effect.actInPass (.paint change))
  | .cycle action next, effect =>
    (next (effect.answerInCycle action)).run args (effect.actInCycle action)
  | .saveState next, effect =>
    (next effect.answerSaveInPass).run args (effect.actInPass .saveState)
  | .loadState state next, effect =>
    (next (effect.answerLoadInPass state)).run args (effect.actInPass (.loadState state))

/-- A plan does what is possible during a pass. -/
theorem run_eq_actInPass (args : List Arg) (plan : PainterPlan σ) (effect : Effect σ) :
    ∃ actions : List (PassAction σ),
      (plan.run args effect).2 = actions.foldl Effect.actInPass effect := by
  have more (action : PassAction σ) {effect after : Effect σ}
      (rest : ∃ actions : List (PassAction σ),
        after = actions.foldl Effect.actInPass (effect.actInPass action)) :
      ∃ actions : List (PassAction σ), after = actions.foldl Effect.actInPass effect := by
    rcases rest with ⟨actions, same⟩
    exact ⟨action :: actions, same⟩
  induction plan generalizing effect with
  | done value => exact ⟨[], rfl⟩
  | look next ih => exact ih _ effect
  | assign position value next ih =>
      rw [run, assignArg]
      cases args[position]? with
      | none => exact ih effect
      | some arg =>
          dsimp only
          rw [Arg.assign]
          cases arg.cell? with
          | none => exact ih effect
          | some cell => exact more (.assign cell value) (ih _)
  | writeRange address values next ih => exact more _ (ih _)
  | setString id text next ih => exact more _ (ih _)
  | paint change next ih => exact more _ (ih _)
  | cycle action next ih => exact more (.cycle action) (ih _ _)
  | saveState next ih => exact more _ (ih _ _)
  | loadState state next ih => exact more _ (ih _ _)

end PainterPlan

/-- Every drawing function follows a plan that its name and the values of its arguments
decide, and which of them are variables. -/
def Painter.Planned {σ : Type} (painter : Painter σ) : Prop :=
  ∃ plan : String → List (Float × Bool) → PainterPlan σ,
    ∀ (name : String) (args : List Arg) (effect : Effect σ),
      painter.call name args effect =
        (plan name (args.map fun arg => (arg.value, arg.cell?.isSome))).run args effect

theorem Painter.Planned.confined {σ : Type} {painter : Painter σ} (planned : painter.Planned) :
    painter.Confined := by
  rcases planned with ⟨plan, follows⟩
  intro name args effect
  rw [follows]
  exact PainterPlan.run_eq_actInPass args _ effect

end EffectHost

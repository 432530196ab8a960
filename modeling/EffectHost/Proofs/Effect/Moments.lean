import EffectHost.Proofs.Effect.Actions

/-!
# Moments in the life of an effect

A drawing pass is long: while drawing code runs, cycles come and go.  Cut at the calls
that drawing code makes, a pass is a list of moments between one that takes the machine
and one that sets it free, and so everything that happens to compiled code is one list of
moments.  Together with loading and compiling they lead to every effect that there can be.
-/

namespace EffectHost

/-- What can happen to an effect while its code stays, be it during a drawing pass. -/
inductive Moment (σ : Type) where
  | cycle (action : CycleAction)
  | saveState
  | loadState (state : EffectState)
  | attach (surface : σ)
  | setKey (key : Nat) (pressed : Bool)
  | setMouse (modifiers : Nat) (x y : Int) (buttons : Nat) (wheel sideWheel : Float)
  | changeDisk (disk : Disk)
  /-- A drawing pass takes the machine. -/
  | beginPass (surface : σ)
  /-- The drawing pass sets the machine free. -/
  | endPass
  /-- Drawing code writes to a variable. -/
  | assign (cell : Cell) (value : Float)
  | writeItem (position value : Float)
  | writeRange (address : Nat) (values : Array Float)
  | setString (id : Float) (text : String)
  /-- Drawing code calls a host function. -/
  | call (facts : Facts) (function : HostFunction) (args : List Arg)
  | paint (change : σ → σ)

namespace Effect

variable {σ : Type}

/-- What an effect is after a moment. -/
def moment (painter : Painter σ) (effect : Effect σ) : Moment σ → Effect σ
  | .cycle action => effect.actInCycle action
  | .saveState => effect.saveState.2
  | .loadState state => (effect.loadState state).2
  | .attach surface => effect.attach surface
  | .setKey key pressed => effect.setKey key pressed
  | .setMouse modifiers x y buttons wheel sideWheel =>
    effect.setMouse modifiers x y buttons wheel sideWheel
  | .changeDisk disk => { effect with rig := { effect.rig with disk := disk } }
  | .beginPass surface =>
    let ready := effect.setUpDueDrawing painter surface
    (ready.tellSize painter (ready.rig.drawing.surface?.getD surface)).setBusy true
  | .endPass => ((effect.setBusy false).takeDirty painter).2
  | .assign cell value => { effect with store := effect.store.set cell value }
  | .writeItem position value => { effect with store := effect.store.writeItem position value }
  | .writeRange address values =>
    { effect with store := (effect.store.writeRange address values).2 }
  | .setString id text => { effect with store := (effect.store.setString id text).2 }
  | .call facts function args =>
    let done := function.run facts drawingCaller args (effect.store, effect.around)
    { effect with store := done.2.1, around := done.2.2 }
  | .paint change =>
    effect.updateDrawing fun drawing => { drawing with surface? := drawing.surface?.map change }

/-- What an effect is after moments in a row. -/
def through (effect : Effect σ) (painter : Painter σ) (moments : List (Moment σ)) :
    Effect σ :=
  moments.foldl (moment painter) effect

variable {painter : Painter σ}

@[simp] theorem through_append (effect : Effect σ) (first second : List (Moment σ)) :
    effect.through painter (first ++ second) =
      (effect.through painter first).through painter second :=
  List.foldl_append

/-- Some list of moments leads from one effect to another. -/
def LeadsTo (painter : Painter σ) (before after : Effect σ) : Prop :=
  ∃ moments, after = before.through painter moments

theorem LeadsTo.refl (effect : Effect σ) : LeadsTo painter effect effect :=
  ⟨[], rfl⟩

theorem LeadsTo.trans {first second third : Effect σ} (left : LeadsTo painter first second)
    (right : LeadsTo painter second third) : LeadsTo painter first third := by
  rcases left with ⟨early, rfl⟩
  rcases right with ⟨late, rfl⟩
  exact ⟨early ++ late, (through_append first early late).symm⟩

theorem LeadsTo.moment {before after : Effect σ} (led : LeadsTo painter before after)
    (next : Moment σ) : LeadsTo painter before (after.moment painter next) :=
  led.trans ⟨[next], rfl⟩

/-! ## A drawing pass is a list of moments -/

theorem leadsTo_actInPass (effect : Effect σ) (action : PassAction σ) :
    LeadsTo painter effect (effect.actInPass action) := by
  have start : LeadsTo painter effect effect := LeadsTo.refl effect
  cases action with
  | cycle action => exact start.moment (.cycle action)
  | saveState =>
      rw [actInPass]
      split
      · exact start
      · exact start.moment .saveState
  | loadState state =>
      rw [actInPass]
      split
      · exact start
      · exact start.moment (.loadState state)
  | assign cell value => exact start.moment (.assign cell value)
  | writeRange address values => exact start.moment (.writeRange address values)
  | setString id text => exact start.moment (.setString id text)
  | paint change => exact start.moment (.paint change)

theorem leadsTo_call (confined : painter.Confined) (name : String) (args : List Arg)
    (effect : Effect σ) : LeadsTo painter effect (painter.call name args effect).2 := by
  rcases confined name args effect with ⟨actions, performed⟩
  rw [performed]
  clear performed
  induction actions generalizing effect with
  | nil => exact LeadsTo.refl effect
  | cons action others ih => exact (leadsTo_actInPass effect action).trans (ih _)

/-- Each step of drawing code is a moment, or some moments of the function that it calls. -/
theorem preserves_leadsTo (confined : painter.Confined) (facts : Facts) (start : Effect σ) :
    (drawingHost facts painter).Preserves fun state =>
      LeadsTo painter start ⟨state.1, state.2.1, state.2.2⟩ where
  set := fun cell value _ _ before => before.moment (.assign cell value)
  writeItem := fun position value _ _ before => before.moment (.writeItem position value)
  call := by
    intro name args state before
    rcases state with ⟨store, around, rig⟩
    rw [drawingHost_call]
    split
    · next function _ => exact before.moment (.call facts function args)
    · split
      · exact before.trans (leadsTo_call confined name args ⟨store, around, rig⟩)
      · exact before

/-- A drawing pass is a list of moments. -/
theorem leadsTo_runPass (confined : painter.Confined) (effect : Effect σ) :
    LeadsTo painter effect (effect.runPass painter).2 := by
  rw [runPass]
  split
  · next program surface _ _ =>
      let busy := effect.moment painter (.beginPass surface)
      have begun : LeadsTo painter effect busy := (LeadsTo.refl effect).moment _
      have ran := Code.run_preserves (preserves_leadsTo confined busy.facts busy) program
        (busy.store, busy.around, busy.rig) (LeadsTo.refl busy)
      exact (begun.trans ran).moment .endPass
  · exact LeadsTo.refl effect

theorem leadsTo_draw (confined : painter.Confined) (effect : Effect σ) :
    LeadsTo painter effect (effect.draw painter).2 := by
  rw [draw]
  split
  · exact leadsTo_runPass confined effect
  · exact LeadsTo.refl effect

/-! ## All effects that there can be -/

/-- An effect that loading, compiling and moments lead to. -/
inductive Reached (painter : Painter σ) (config : Config) : Effect σ → Prop where
  | new (disk : Disk) : Reached painter config (Effect.new disk config)
  | load {effect : Effect σ} (before : Reached painter config effect) (path : String)
      (ignoreImports : Bool) : Reached painter config (effect.load path ignoreImports).effect
  | compile {effect : Effect σ} (before : Reached painter config effect)
      (options : CompileOptions) : Reached painter config (effect.compile options).effect
  | unloadCode {effect : Effect σ} (before : Reached painter config effect) :
      Reached painter config effect.unloadCode
  | unload {effect : Effect σ} (before : Reached painter config effect) :
      Reached painter config effect.unload
  | moment {effect : Effect σ} (before : Reached painter config effect) (next : Moment σ) :
      Reached painter config (effect.moment painter next)

theorem Reached.through {config : Config} {effect : Effect σ}
    (reached : Reached painter config effect) (moments : List (Moment σ)) :
    Reached painter config (effect.through painter moments) := by
  induction moments generalizing effect with
  | nil => exact reached
  | cons next others ih => exact ih (reached.moment next)

theorem Reached.act {config : Config} {effect : Effect σ}
    (reached : Reached painter config effect) (confined : painter.Confined)
    (action : HostAction σ) : Reached painter config (effect.act painter action) := by
  cases action with
  | cycle action => exact reached.moment (.cycle action)
  | load path ignoreImports => exact reached.load path ignoreImports
  | compile options => exact reached.compile options
  | unloadCode => exact reached.unloadCode
  | unload => exact reached.unload
  | saveState => exact reached.moment .saveState
  | loadState state => exact reached.moment (.loadState state)
  | attach surface => exact reached.moment (.attach surface)
  | setKey key pressed => exact reached.moment (.setKey key pressed)
  | setMouse modifiers x y buttons wheel sideWheel =>
      exact reached.moment (.setMouse modifiers x y buttons wheel sideWheel)
  | draw =>
      rcases leadsTo_draw confined effect with ⟨moments, drawn⟩
      rw [Effect.act, drawn]
      exact reached.through moments
  | changeDisk disk => exact reached.moment (.changeDisk disk)

/-- Whatever a host does, it reaches such an effect. -/
theorem reached_after (confined : painter.Confined) (disk : Disk) (config : Config)
    (actions : List (HostAction σ)) :
    Reached painter config ((Effect.new disk config).after painter actions) := by
  have onward : ∀ (others : List (HostAction σ)) (effect : Effect σ),
      Reached painter config effect → Reached painter config (effect.after painter others) := by
    intro others
    induction others with
    | nil => exact fun _ reached => reached
    | cons action others ih => exact fun effect reached => ih _ (reached.act confined action)
  exact onward actions _ (.new disk)

end Effect
end EffectHost

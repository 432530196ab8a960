import EffectHost.Proofs.Effect.Grounded

/-!
# No cell is taken away

Only compiling makes cells, and nothing takes one away.  So a cell that a name has denoted once is
there for ever, and a new cell is none of those that were there at any time before.
-/

namespace EffectHost

open HostFunction Store

namespace Effect

variable {σ : Type} {painter : Painter σ} {config : Config}

/-! ## While the code stays -/

theorem sameShape_perform (effect : Effect σ) (step : Step) :
    SameShape effect.store (effect.perform step).store := by
  cases step with
  | startInit => exact sameShape_startInit effect
  | tell plan frames => exact sameShape_writeAll _ _
  | feed plan inputs frame =>
      simp only [perform, feedFrame_eq_writeAll]
      exact sameShape_writeAll _ _
  | run caller id => exact (frame_codeRun effect caller _).shape
  | begin => exact sameShape_set _ _ _
  | restoreSliders values =>
      exact (sameShape_defaultSliders _ _).trans (sameShape_writeSliders _ _ values)
  | passOn | noteInit | noteMoves | noteSlider | beginSerialize | endSerialize | clearInput =>
      exact .refl effect.store

theorem sameShape_performAll (effect : Effect σ) (steps : List Step) :
    SameShape effect.store (effect.performAll steps).store := by
  induction steps generalizing effect with
  | nil => exact .refl effect.store
  | cons step others ih => exact (sameShape_perform effect step).trans (ih _)

theorem sameShape_actInCycle (effect : Effect σ) (action : CycleAction) :
    SameShape effect.store (effect.actInCycle action).store := by
  cases action with
  | process precision inputs outputs frames =>
      rw [actInCycle, process_eq_performAll]
      exact sameShape_performAll effect _
  | sendMidi event => exact .refl effect.store
  | _ => exact (onlyTells_actInCycle effect _ rfl).shape

/-- No moment makes a cell or takes one away. -/
theorem sameShape_moment (effect : Effect σ) (next : Moment σ) :
    SameShape effect.store (effect.moment painter next).store := by
  cases next with
  | cycle action => exact sameShape_actInCycle effect action
  | saveState =>
      rw [moment, saveState_eq_performAll]
      exact sameShape_performAll effect _
  | loadState state =>
      rw [moment, loadState_eq_performAll]
      exact sameShape_performAll effect _
  | setMouse modifiers x y buttons wheel sideWheel =>
      rw [moment, setMouse]
      split
      · exact sameShape_writeAll _ _
      · exact .refl effect.store
  | setKey key pressed =>
      rw [moment, setKey]
      split <;> exact .refl effect.store
  | beginPass surface => exact sameShape_beginPass painter effect surface
  | endPass =>
      simp only [moment, takeDirty]
      split <;> exact .refl effect.store
  | assign cell value => exact sameShape_set _ _ _
  | writeItem position value => exact sameShape_writeItem _ _ _
  | writeRange address values => exact sameShape_writeRange _ _ _
  | setString id text => exact sameShape_setString _ _ _
  | call facts function args =>
      exact (frame_run facts drawingCaller function args (effect.store, effect.around)).shape
  | attach surface | changeDisk disk | paint change => exact .refl effect.store

/-! ## Cells over time -/

theorem cells_unloadCode (effect : Effect σ) :
    effect.unloadCode.store.cells.size = effect.store.cells.size :=
  congrArg Array.size (store_unloadCode effect)

/-- What an attempt to compile comes to: sections that compile, or sections that do not, or nothing to
compile at all. -/
theorem compile_cases (effect : Effect σ) (options : CompileOptions) :
    (∃ script info sections machine, effect.rig.script? = some script ∧
      effect.rig.info? = some info ∧
      CompiledSections.compile info.aliases.cell? script options effect.unloadCode.machine =
        (.ok sections, machine) ∧
      effect.compile options =
        ⟨(effect.unloadCode.withMachine machine).installCode sections, .ok (), []⟩) ∨
    (∃ script, ∃ info : ScriptInfo, ∃ failure machine reports,
      CompiledSections.compile info.aliases.cell? script options effect.unloadCode.machine =
        (.error failure, machine) ∧
      effect.compile options = ⟨effect.unloadCode.withMachine machine, .error failure, reports⟩) ∨
    ∃ failure reports, effect.compile options = ⟨effect.unloadCode, .error failure, reports⟩ := by
  generalize attempted : effect.compile options = attempt
  rw [compile] at attempted
  split at attempted
  · next script info known informed =>
      split at attempted
      · next sections machine compiled =>
          exact .inl ⟨script, info, sections, machine, known, informed, compiled, attempted.symm⟩
      · next failure machine failed =>
          exact .inr (.inl ⟨script, info, failure, machine, _, failed, attempted.symm⟩)
  · exact .inr (.inr ⟨_, _, attempted.symm⟩)

/-- What compiling keeps holds between a machine without code and one with the code of a script. -/
theorem kept_compile {kept : Machine → Machine → Prop} (keeps : Machine.KeptByCompiling kept)
    (effect : Effect σ) (options : CompileOptions) :
    kept effect.unloadCode.machine (effect.compile options).effect.machine := by
  rcases effect.compile_cases options with
    ⟨script, info, sections, machine, _, _, compiled, done⟩ |
    ⟨script, info, failure, machine, _, failed, done⟩ | ⟨_, _, done⟩
  · have made := keeps.compileScript info.aliases.cell? script options effect.unloadCode.machine
    rw [compiled] at made
    rw [done]
    exact keeps.trans made (keeps.freeAll _ _)
  · have made := keeps.compileScript info.aliases.cell? script options effect.unloadCode.machine
    rw [failed] at made
    rw [done]
    exact made
  · rw [done]
    exact keeps.refl _

theorem cells_le_compile (effect : Effect σ) (options : CompileOptions) :
    effect.store.cells.size ≤ (effect.compile options).effect.store.cells.size := by
  rw [← cells_unloadCode effect]
  exact kept_compile Machine.cellCount_keptByCompiling effect options

theorem cells_through (effect : Effect σ) (moments : List (Moment σ)) :
    (effect.through painter moments).store.cells.size = effect.store.cells.size := by
  induction moments generalizing effect with
  | nil => rfl
  | cons next others ih => exact (ih _).trans (sameShape_moment effect next).cells

/-- Whatever the host does, no cell is taken away. -/
theorem cells_le_act (confined : painter.Confined) (effect : Effect σ) (action : HostAction σ) :
    effect.store.cells.size ≤ (effect.act painter action).store.cells.size := by
  have moment (next : Moment σ) :
      effect.store.cells.size ≤ (effect.moment painter next).store.cells.size :=
    Nat.le_of_eq (sameShape_moment effect next).cells.symm
  cases action with
  | compile options => exact cells_le_compile effect options
  | load path ignoreImports =>
      rw [act, load]
      split
      · have defaults := (sameShape_defaultSliders effect.unload.store ‹LoadedScript›.header).cells
        exact Nat.le_of_eq ((defaults.trans (cells_unloadCode effect)).symm)
      · exact Nat.le_of_eq (cells_unloadCode effect).symm
  | unloadCode => exact Nat.le_of_eq (cells_unloadCode effect).symm
  | unload => exact Nat.le_of_eq (cells_unloadCode effect).symm
  | draw =>
      rcases leadsTo_draw confined effect with ⟨moments, drawn⟩
      rw [act, drawn, cells_through]
  | cycle action => exact moment (.cycle action)
  | saveState => exact moment .saveState
  | loadState state => exact moment (.loadState state)
  | attach surface => exact moment (.attach surface)
  | setKey key pressed => exact moment (.setKey key pressed)
  | setMouse modifiers x y buttons wheel sideWheel =>
      exact moment (.setMouse modifiers x y buttons wheel sideWheel)
  | changeDisk disk => exact moment (.changeDisk disk)

theorem cells_le_after (confined : painter.Confined) (effect : Effect σ)
    (actions : List (HostAction σ)) :
    effect.store.cells.size ≤ (effect.after painter actions).store.cells.size := by
  induction actions generalizing effect with
  | nil => exact Nat.le_refl _
  | cons action others ih => exact Nat.le_trans (cells_le_act confined effect action) (ih _)

end Effect
end EffectHost

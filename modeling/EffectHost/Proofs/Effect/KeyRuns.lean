import EffectHost.Proofs.Effect.IdleSerializer
import EffectHost.Proofs.Effect.TwinActions
import EffectHost.Proofs.Host.Keys

/-!
# Keys in the life of an effect

Only drawing passes and what the host tells of keys reach the keyboard: code that does not draw
has no keyboard, and what a drawing function may do besides painting leaves it alone.  So a ledger
of what the host tells, of fresh starts and of what drawing code asks, accounts for the keyboard
of an effect after whatever the host has done with it, and for every answer that drawing code
gets.
-/

namespace EffectHost

open HostFunction

/-- Code runs in the step that has a keyboard. -/
def Step.hasKeyboard : Step → Bool
  | .run caller _ => caller.mayUseKeyboard
  | _ => false

namespace Effect

variable {σ : Type} {painter : Painter σ} {ledger : KeyLedger}

/-! ## Code that does not draw -/

/-- Keys are left as they are, and so is whether somebody listens. -/
structure KeepsKeys (before after : Effect σ) : Prop where
  keyboard : after.around.keyboard = before.around.keyboard
  isReady : after.rig.drawing.isReady = before.rig.drawing.isReady

namespace KeepsKeys

theorem refl (effect : Effect σ) : KeepsKeys effect effect :=
  ⟨rfl, rfl⟩

theorem trans {first second third : Effect σ} (left : KeepsKeys first second)
    (right : KeepsKeys second third) : KeepsKeys first third :=
  ⟨right.keyboard.trans left.keyboard, right.isReady.trans left.isReady⟩

end KeepsKeys

theorem keyboard_codeHost (effect : Effect σ) {caller : Caller}
    (deaf : caller.mayUseKeyboard = false) (keyboard : Keyboard) :
    (effect.codeHost caller).Preserves fun state => state.2.keyboard = keyboard where
  set := fun _ _ _ _ before => before
  writeItem := fun _ _ _ _ before => before
  call := by
    intro name args state before
    simp only [codeHost, HostFunction.call]
    split
    · next function _ =>
        exact (keyboard_run effect.facts caller function args state (.inr deaf)).trans before
    · exact before

theorem keyboard_perform (effect : Effect σ) {step : Step} (deaf : step.hasKeyboard = false) :
    (effect.perform step).around.keyboard = effect.around.keyboard := by
  cases step with
  | run caller id =>
      exact Code.run_preserves (keyboard_codeHost effect deaf effect.around.keyboard)
        (effect.programOf id) (effect.store, effect.around) rfl
  | startInit =>
      rw [perform, startInit]
      dsimp only
      split <;> rfl
  | _ => rfl

theorem keyboard_performAll (effect : Effect σ) {steps : List Step}
    (deaf : ∀ step ∈ steps, step.hasKeyboard = false) :
    (effect.performAll steps).around.keyboard = effect.around.keyboard := by
  induction steps generalizing effect with
  | nil => rfl
  | cons step others ih =>
      rcases List.forall_mem_cons.mp deaf with ⟨first, rest⟩
      rw [performAll_cons, ih _ rest, keyboard_perform effect first]

theorem deaf_of_program? {step : Step} (quiet : step.program? = none) :
    step.hasKeyboard = false := by
  cases step with
  | run => cases quiet
  | _ => rfl

/-- No code in a cycle has a keyboard. -/
theorem deaf_cycleSteps (effect : Effect σ) (inputs outputs : List Channel) (frames : Nat) :
    ∀ step ∈ effect.cycleSteps inputs outputs frames, step.hasKeyboard = false :=
  effect.forall_cycleSteps inputs outputs frames rfl (fun _ => rfl) rfl
    (fun _ _ => deaf_of_program?) fun _ => rfl

/-- No code has a keyboard while a state is saved or restored. -/
theorem deaf_serializeSteps (effect : Effect σ) (mode : SerializeMode) (data : ByteArray) :
    ∀ step ∈ effect.serializeSteps mode data, step.hasKeyboard = false :=
  effect.forall_serializeSteps mode data rfl rfl (fun _ _ => deaf_of_program?) (fun _ => rfl)
    fun _ => rfl

theorem keepsKeys_performAll (effect : Effect σ) {steps : List Step}
    (deaf : ∀ step ∈ steps, step.hasKeyboard = false) :
    KeepsKeys effect (effect.performAll steps) :=
  ⟨keyboard_performAll effect deaf, isReady_performAll effect steps⟩

theorem keepsKeys_saveState (effect : Effect σ) : KeepsKeys effect effect.saveState.2 := by
  rw [saveState_eq_performAll, saveSteps]
  split
  · exact keepsKeys_performAll effect (deaf_serializeSteps effect _ _)
  · exact .refl effect

theorem keepsKeys_loadState (effect : Effect σ) (state : EffectState) :
    KeepsKeys effect (effect.loadState state).2 := by
  rw [loadState_eq_performAll, loadSteps]
  split
  · exact keepsKeys_performAll effect
      (List.forall_mem_cons.mpr ⟨rfl, deaf_serializeSteps effect _ _⟩)
  · exact .refl effect

theorem keyboard_actInCycle (effect : Effect σ) (action : CycleAction) :
    (effect.actInCycle action).around.keyboard = effect.around.keyboard := by
  cases action with
  | process precision inputs outputs frames =>
      rw [actInCycle, process_eq_performAll]
      exact keyboard_performAll effect (deaf_cycleSteps effect inputs outputs frames)
  | sendMidi event => rfl
  | _ => exact (onlyTells_actInCycle effect _ rfl).keyboard

theorem keepsKeys_actInCycle (effect : Effect σ) (action : CycleAction) :
    KeepsKeys effect (effect.actInCycle action) :=
  ⟨keyboard_actInCycle effect action, isReady_actInCycle effect action⟩

theorem keepsKeys_actInPass (effect : Effect σ) (action : PassAction σ) :
    KeepsKeys effect (effect.actInPass action) := by
  cases action with
  | cycle action => exact keepsKeys_actInCycle effect action
  | saveState =>
      rw [actInPass]
      split
      · exact .refl effect
      · exact keepsKeys_saveState effect
  | loadState state =>
      rw [actInPass]
      split
      · exact .refl effect
      · exact keepsKeys_loadState effect state
  | assign cell value | writeRange address values | setString id text | paint change =>
      exact ⟨rfl, rfl⟩

/-- A drawing function leaves the keys alone. -/
theorem keepsKeys_call (confined : painter.Confined) (name : String) (args : List Arg)
    (effect : Effect σ) : KeepsKeys effect (painter.call name args effect).2 := by
  rcases confined name args effect with ⟨actions, performed⟩
  rw [performed]
  clear performed
  induction actions generalizing effect with
  | nil => exact .refl effect
  | cons action others ih => exact (keepsKeys_actInPass effect action).trans (ih _)

theorem keepsKeys_endPass (painter : Painter σ) (effect : Effect σ) :
    KeepsKeys effect (effect.moment painter .endPass) := by
  rw [moment, takeDirty]
  split <;> exact ⟨rfl, rfl⟩

/-! ## What happens to the keyboard -/

/-- What a call of drawing code has to do with keys, with the answer that its host gives. -/
def keyEvent? (host : CodeHost (Surroundings × Rig σ))
    (call : TracedCall (Surroundings × Rig σ)) : Option KeyEvent :=
  if HostFunction.ofName? call.name = some .nextKey then
    some (.asked call.state.2.1.keyboard (argValue call.args 0)
      ((host.call call.name call.args call.state).1.getD 0.0))
  else none

/-- What happens to the keyboard in a drawing pass that runs a program. -/
def passKeyEvents (effect : Effect σ) (painter : Painter σ) (program : Program) :
    List KeyEvent :=
  match effect.rig.drawing.surface? with
  | some surface =>
    let busy := effect.moment painter (.beginPass surface)
    let host := drawingHost busy.facts painter
    (if effect.rig.drawing.initRequested || !effect.rig.drawing.isReady then [.reset] else []) ++
      (Code.calls host program (busy.store, busy.around, busy.rig)).filterMap (keyEvent? host)
  | none => []

/-- What happens to the keyboard when the host draws. -/
def drawKeyEvents (effect : Effect σ) (painter : Painter σ) : List KeyEvent :=
  match effect.hasInfo, effect.program? .gfx with
  | true, some program => effect.passKeyEvents painter program
  | _, _ => []

/-- What happens to the keyboard in an action of the host. -/
def keyEvents (painter : Painter σ) (effect : Effect σ) : HostAction σ → List KeyEvent
  | .setKey key pressed => [.told key pressed]
  | .draw => effect.drawKeyEvents painter
  | .load _ _ | .compile _ | .unloadCode | .unload | .attach _ => [.closed]
  | .cycle _ | .saveState | .loadState _ | .setMouse _ _ _ _ _ _ | .changeDisk _ => []

/-- What happens to the keyboard in actions one after another. -/
def keyHistory (effect : Effect σ) (painter : Painter σ) : List (HostAction σ) → List KeyEvent
  | [] => []
  | action :: others =>
    keyEvents painter effect action ++ (effect.act painter action).keyHistory painter others

/-! ## The ledger of an effect -/

/-- The keys around a rig are those of a ledger, and it tells whether somebody listens. -/
structure KeysFit (ledger : KeyLedger) (around : Surroundings) (rig : Rig σ) : Prop where
  listens : ledger.listens = rig.drawing.isReady
  keyboard : ledger.Describes around.keyboard

namespace KeysFit

variable {effect : Effect σ}

theorem of_keepsKeys {before after : Effect σ} (fits : KeysFit ledger before.around before.rig)
    (keeps : KeepsKeys before after) : KeysFit ledger after.around after.rig := by
  constructor
  · rw [keeps.isReady]
    exact fits.listens
  · rw [keeps.keyboard]
    exact fits.keyboard

/-- Nobody listens any more, but the keyboard stays. -/
theorem close {before after : Effect σ} (fits : KeysFit ledger before.around before.rig)
    (same : after.around.keyboard = before.around.keyboard)
    (closed : after.rig.drawing.isReady = false) :
    KeysFit (ledger.note .closed) after.around after.rig := by
  refine ⟨closed.symm, ?_⟩
  rw [same]
  exact fits.keyboard.withListens false

/-- What the host tells of a key is heard if somebody listens. -/
theorem setKey (fits : KeysFit ledger effect.around effect.rig) (key : Nat) (pressed : Bool) :
    KeysFit (ledger.note (.told key pressed)) (effect.setKey key pressed).around
      (effect.setKey key pressed).rig := by
  have listens := fits.listens
  rw [KeyLedger.note, rig_setKey]
  split
  · next hears =>
      refine ⟨listens, ?_⟩
      rw [hears] at listens
      by_cases isKey : key = 0
      · have ignored : effect.setKey key pressed = effect := by
          rw [Effect.setKey, isKey]
          simp
        rw [ignored, isKey]
        exact fits.keyboard.hearNothing pressed
      · have heard : effect.setKey key pressed = { effect with
            around := { effect.around with
              keyboard := if pressed then effect.around.keyboard.press key
                else effect.around.keyboard.release key } } := by
          rw [Effect.setKey, ← listens, Bool.true_and, if_pos (by simpa using isKey)]
        rw [heard]
        cases pressed with
        | true => exact fits.keyboard.press isKey
        | false => exact fits.keyboard.release key
  · next deaf =>
      have ignored : effect.setKey key pressed = effect := by
        rw [Effect.setKey, ← listens, Bool.eq_false_iff.mpr deaf]
        rfl
      rw [ignored]
      exact fits

/-- A pass that begins afresh begins without keys, and any other with those that are there. -/
theorem beginPass (fits : KeysFit ledger effect.around effect.rig) (painter : Painter σ)
    (surface : σ) :
    let busy := effect.moment painter (.beginPass surface)
    KeysFit (ledger.noteAll
      (if effect.rig.drawing.initRequested || !effect.rig.drawing.isReady then [.reset] else []))
      busy.around busy.rig := by
  simp only [moment, setUpDueDrawing]
  split
  · exact ⟨rfl, .blank true⟩
  · exact ⟨fits.listens, fits.keyboard⟩

/-- A call of drawing code that asks of keys gets what the ledger says, and no other call has to
do with keys. -/
theorem call (confined : painter.Confined) (facts : Facts) (store : Store)
    {around : Surroundings} {rig : Rig σ} (fits : KeysFit ledger around rig) (name : String)
    (args : List Arg) :
    let host := drawingHost facts painter
    let events := (keyEvent? host ⟨name, args, (store, around, rig)⟩).toList
    let done := host.call name args (store, around, rig)
    KeysFit (ledger.noteAll events) done.2.2.1 done.2.2.2 ∧ ledger.Explains events := by
  intro host events done
  by_cases asks : HostFunction.ofName? name = some .nextKey
  · let asked := HostFunction.key drawingCaller args (store, around)
    have did : done = (some asked.1, asked.2.1, asked.2.2, rig) := by
      simp only [done, host, drawingHost_call, asks]
      rfl
    have noted : events = [.asked around.keyboard (argValue args 0) asked.1] := by
      have answer : (done.1.getD 0.0) = asked.1 := by rw [did, Option.getD_some]
      simp only [events, keyEvent?, if_pos asks, Option.toList_some]
      exact congrArg (fun answer => [KeyEvent.asked around.keyboard _ answer]) answer
    have may : drawingCaller.mayUseKeyboard = true := rfl
    rcases key_of_describes may args (store, around) fits.keyboard with ⟨same, kept⟩
    rw [noted, did]
    refine ⟨⟨?_, kept asked.1⟩, ?_⟩
    · rw [KeyLedger.noteAll_cons, KeyLedger.noteAll_nil, KeyLedger.note]
      split <;> exact fits.listens
    · exact same ▸ KeyLedger.explains_asked fits.keyboard (argValue args 0)
  · have silent : events = [] := by
      simp only [events, keyEvent?, if_neg asks, Option.toList_none]
    rw [silent]
    refine ⟨?_, KeyLedger.explains_nil ledger⟩
    simp only [done, host, drawingHost_call]
    split
    · next function found =>
        have other : function ≠ .nextKey := by
          rintro rfl
          exact asks found
        refine ⟨fits.listens, ?_⟩
        rw [keyboard_run facts drawingCaller function args (store, around) (.inl other)]
        exact fits.keyboard
    · split
      · exact fits.of_keepsKeys (keepsKeys_call confined name args ⟨store, around, rig⟩)
      · exact fits

/-- Drawing code takes presses only by asking for them. -/
theorem runProgram (confined : painter.Confined) (facts : Facts) (store : Store)
    {around : Surroundings} {rig : Rig σ} (fits : KeysFit ledger around rig)
    (program : Program) :
    let host := drawingHost facts painter
    let events := (Code.calls host program (store, around, rig)).filterMap (keyEvent? host)
    let done := Code.run host program (store, around, rig)
    KeysFit (ledger.noteAll events) done.2.1 done.2.2 ∧ ledger.Explains events := by
  intro host events done
  refine Code.calls_preserves host (fun outer past =>
    KeysFit (ledger.noteAll (past.filterMap (keyEvent? host))) outer.1 outer.2 ∧
      ledger.Explains (past.filterMap (keyEvent? host))) ?_ program (store, around, rig)
    ⟨fits, KeyLedger.explains_nil ledger⟩
  rintro name args ⟨store, around, rig⟩ past ⟨before, explained⟩
  have called := before.call confined facts store name args
  have more : [(⟨name, args, (store, around, rig)⟩ : TracedCall _)].filterMap (keyEvent? host) =
      (keyEvent? host ⟨name, args, (store, around, rig)⟩).toList := by
    rw [List.filterMap_cons, List.filterMap_nil]
    cases keyEvent? host ⟨name, args, (store, around, rig)⟩ <;> rfl
  rw [List.filterMap_append, KeyLedger.noteAll_append, more]
  exact ⟨called.1, explained.append called.2⟩

/-- Drawing does with the keyboard what its events say. -/
theorem draw (confined : painter.Confined) (fits : KeysFit ledger effect.around effect.rig) :
    let events := effect.drawKeyEvents painter
    let done := (effect.draw painter).2
    KeysFit (ledger.noteAll events) done.around done.rig ∧ ledger.Explains events := by
  have nothing : KeysFit (ledger.noteAll []) effect.around effect.rig ∧ ledger.Explains [] :=
    ⟨fits, KeyLedger.explains_nil ledger⟩
  rw [drawKeyEvents, Effect.draw, Effect.runPass]
  cases effect.hasInfo with
  | false => exact nothing
  | true =>
  cases effect.program? .gfx with
  | none => exact nothing
  | some program =>
  dsimp only
  rw [passKeyEvents]
  cases effect.rig.drawing.surface? with
  | none => exact nothing
  | some surface =>
      let busy := effect.moment painter (.beginPass surface)
      let done := Code.run (drawingHost busy.facts painter) program
        (busy.store, busy.around, busy.rig)
      let ran : Effect σ := ⟨done.1, done.2.1, done.2.2⟩
      have begun := fits.beginPass painter surface
      have opened : ledger.Explains (if effect.rig.drawing.initRequested ||
          !effect.rig.drawing.isReady then [.reset] else []) := by
        split
        · exact KeyLedger.explains_of_not_asked (by simp)
        · exact nothing.2
      rcases begun.runProgram confined busy.facts busy.store program with
        ⟨went, explained⟩
      dsimp only
      rw [KeyLedger.noteAll_append]
      refine ⟨?_, opened.append explained⟩
      have left : KeysFit _ ran.around ran.rig := went
      exact left.of_keepsKeys (keepsKeys_endPass painter ran)

/-- An action of the host does with the keyboard what its events say. -/
theorem act (confined : painter.Confined) (fits : KeysFit ledger effect.around effect.rig)
    (action : HostAction σ) :
    let events := keyEvents painter effect action
    let done := effect.act painter action
    KeysFit (ledger.noteAll events) done.around done.rig ∧ ledger.Explains events := by
  have quiet {after : Effect σ} (keeps : KeepsKeys effect after) :
      KeysFit (ledger.noteAll []) after.around after.rig ∧ ledger.Explains [] :=
    ⟨fits.of_keepsKeys keeps, KeyLedger.explains_nil ledger⟩
  have closed {after : Effect σ} (same : after.around.keyboard = effect.around.keyboard)
      (ended : after.rig.drawing.isReady = false) :
      KeysFit (ledger.noteAll [.closed]) after.around after.rig ∧ ledger.Explains [.closed] :=
    ⟨fits.close same ended, KeyLedger.explains_of_not_asked (by simp)⟩
  cases action with
  | cycle action => exact quiet (keepsKeys_actInCycle effect action)
  | saveState => exact quiet (keepsKeys_saveState effect)
  | loadState state => exact quiet (keepsKeys_loadState effect state)
  | setMouse modifiers x y buttons wheel sideWheel =>
      apply quiet
      rw [Effect.act, setMouse]
      split <;> exact ⟨rfl, rfl⟩
  | changeDisk disk => exact quiet ⟨rfl, rfl⟩
  | setKey key pressed =>
      exact ⟨fits.setKey key pressed, KeyLedger.explains_of_not_asked (by simp)⟩
  | draw => exact fits.draw confined
  | attach surface => exact closed rfl rfl
  | unloadCode => exact closed rfl rfl
  | unload => exact closed rfl rfl
  | load path ignoreImports =>
      apply closed
      · rw [Effect.act, Effect.load]
        split <;> rfl
      · rw [Effect.act, Effect.load]
        split <;> rfl
  | compile options =>
      apply closed
      · rw [Effect.act, Effect.compile]
        split
        · split <;> rfl
        · rfl
      · rw [Effect.act, Effect.compile]
        split
        · split <;> rfl
        · rfl

/-- Actions in a row do with the keyboard what their events say. -/
theorem after (confined : painter.Confined) (fits : KeysFit ledger effect.around effect.rig)
    (actions : List (HostAction σ)) :
    let events := effect.keyHistory painter actions
    let done := effect.after painter actions
    KeysFit (ledger.noteAll events) done.around done.rig ∧ ledger.Explains events := by
  induction actions generalizing ledger effect with
  | nil => exact ⟨fits, KeyLedger.explains_nil ledger⟩
  | cons action others ih =>
      rcases fits.act confined action with ⟨acted, explained⟩
      rcases ih acted with ⟨ended, later⟩
      dsimp only
      rw [keyHistory, KeyLedger.noteAll_append]
      exact ⟨ended, explained.append later⟩

end KeysFit

/-! ## Runs with a drawing program that is known -/

theorem keyHistory_append (effect : Effect σ) (painter : Painter σ)
    (first second : List (HostAction σ)) :
    effect.keyHistory painter (first ++ second) =
      effect.keyHistory painter first ++
        (effect.after painter first).keyHistory painter second := by
  induction first generalizing effect with
  | nil => rfl
  | cons action others ih =>
      rw [List.cons_append, keyHistory, keyHistory, ih, List.append_assoc]
      rfl

/-- What an effect is after a drawing pass that runs a program. -/
def passOf (effect : Effect σ) (painter : Painter σ) (program : Program) : Effect σ :=
  match effect.rig.drawing.surface? with
  | some surface =>
    let busy := effect.moment painter (.beginPass surface)
    let left := Code.run (drawingHost busy.facts painter) program
      (busy.store, busy.around, busy.rig)
    moment painter ⟨left.1, left.2.1, left.2.2⟩ .endPass
  | none => effect

theorem draw_eq_passOf (painter : Painter σ) {effect : Effect σ} {program : Program}
    (informed : effect.hasInfo = true) (running : effect.program? .gfx = some program) :
    (effect.draw painter).2 = effect.passOf painter program := by
  rw [draw, if_pos informed, runPass, running, passOf]
  cases effect.rig.drawing.surface? <;> rfl

/-- The host draws or tells of a key. -/
def isPlay : HostAction σ → Bool
  | .draw | .setKey _ _ => true
  | _ => false

/-- Draw with a program and tell of keys, noting what happens to the keyboard. -/
def playKeys (effect : Effect σ) (painter : Painter σ) (program : Program) :
    List (HostAction σ) → List KeyEvent × Effect σ
  | [] => ([], effect)
  | .draw :: others =>
    let rest := (effect.passOf painter program).playKeys painter program others
    (effect.passKeyEvents painter program ++ rest.1, rest.2)
  | action :: others =>
    let rest := (effect.act painter action).playKeys painter program others
    (keyEvents painter effect action ++ rest.1, rest.2)

/-- A run that draws with the program of the effect is told by the program. -/
theorem playKeys_eq (confined : painter.Confined) {effect : Effect σ} {program : Program}
    (informed : effect.hasInfo = true) (free : effect.rig.drawing.isBusy = false)
    (running : effect.program? .gfx = some program) {actions : List (HostAction σ)}
    (plays : ∀ action ∈ actions, isPlay action = true) :
    effect.playKeys painter program actions =
      (effect.keyHistory painter actions, effect.after painter actions) := by
  induction actions generalizing effect with
  | nil => rfl
  | cons action others ih =>
      rcases List.forall_mem_cons.mp plays with ⟨first, rest⟩
      have kept {after : Effect σ} (continues : effect.rig.Continues after.rig) :
          after.playKeys painter program others =
            (after.keyHistory painter others, after.after painter others) := by
        have keeps := Rig.KeepsCode.of_continues continues
        apply ih _ (continues.busy.trans free) _ rest
        · rw [hasInfo, continues.info]
          exact informed
        · rw [program?, programId?_of_keepsCode keeps, programOf_of_keepsCode keeps]
          exact running
      cases action with
      | draw =>
          have drawn := draw_eq_passOf painter informed running
          have played := kept (drawn ▸ continues_draw confined effect free)
          have events : effect.drawKeyEvents painter = effect.passKeyEvents painter program := by
            rw [drawKeyEvents, informed, running]
          have history : effect.keyHistory painter (.draw :: others) =
              effect.passKeyEvents painter program ++
                (effect.passOf painter program).keyHistory painter others := by
            rw [keyHistory, keyEvents, events, act, drawn]
          have ended : effect.after painter (.draw :: others) =
              (effect.passOf painter program).after painter others :=
            congrArg (·.after painter others) drawn
          rw [history, ended, playKeys, played]
      | setKey key pressed =>
          have played := kept (Rig.Continues.of_eq (rig_setKey effect key pressed))
          exact congrArg (fun rest => ([KeyEvent.told key pressed] ++ rest.1, rest.2)) played
      | _ => cases first

/-- What happens to the keyboard once a script is compiled whose programs its text tells. -/
theorem playKeys_of_closed {config : Config} (confined : painter.Confined) {effect : Effect σ}
    (grounded : effect.Grounded config) (closed : effect.isClosed {} = true)
    (compiles : (effect.compile {}).result.isOk = true) (surface : σ) (position : Nat)
    (draws : let ready := (effect.compile {}).effect.attach surface
      ready.hasInfo = true ∧ ready.rig.drawing.isBusy = false ∧
        ready.programId? .gfx = some (effect.rig.code.nextProgram + position) ∧
        position < (effect.programs {}).length)
    (actions : List (HostAction σ)) (plays : ∀ action ∈ actions, isPlay action = true) :
    let ready := (effect.compile {}).effect.attach surface
    ready.playKeys painter ((effect.programs {}).getD position []) actions =
      (ready.keyHistory painter actions, ready.after painter actions) := by
  intro ready
  rcases draws with ⟨informed, free, number, inside⟩
  have made := tells_compile grounded closed (result_of_isOk compiles)
  have tells : ready.Tells effect.rig.code.nextProgram (effect.programs {}) :=
    made.of_keepsCode (keepsCode_moment painter (effect.compile {}).effect (.attach surface))
  exact playKeys_eq confined informed free (program?_of_tells tells number inside) plays

/-- Whatever a host does with an effect, the ledger of what it told of keys, of fresh starts and of
what drawing code asked accounts for the keyboard.  The presses that wait are, in order, those of
the keys other than zero that were told since drawing began afresh while somebody listened, but
for some at the front that the script took or that made room in a full queue of 32; a key other
than zero is down if the last that was told of it is a press; and whenever drawing code asked, it
found such a keyboard and got the oldest waiting key, or zero, or whether the key was down. -/
theorem keyboard_follows_ledger (confined : painter.Confined) (disk : Disk) (config : Config)
    (actions : List (HostAction σ)) :
    let start : Effect σ := Effect.new disk config
    let effect := start.after painter actions
    let events := start.keyHistory painter actions
    let ledger := KeyLedger.after events
    ledger.listens = effect.rig.drawing.isReady ∧ ledger.Describes effect.around.keyboard ∧
      KeyLedger.Explains {} events := by
  intro start effect events ledger
  have blank : KeysFit {} start.around start.rig := ⟨rfl, .blank false⟩
  rcases blank.after confined actions with ⟨fits, explained⟩
  exact ⟨fits.listens, fits.keyboard, explained⟩

/-- A key is pressed before the first pass and another one pressed and released behind it.  The
second pass takes the press of the other key and finds that it is not held. -/
theorem keyboard_follows_ledger_twice :
    let painter : Painter Unit :=
      { size := fun _ => (4, 3), scale := fun _ => 1.0, reset := fun surface => surface
        call := fun _ _ effect => (0.0, effect), takeDirty := fun surface => (true, surface) }
    let disk := Disk.empty.addFile ["script"] "@gfx\ngfx_getchar(0);\ngfx_getchar(65);\n".toUTF8
    let start : Effect Unit := Effect.new disk {}
    let actions : List (HostAction Unit) :=
      [.load "/script" false, .compile {}, .attach (), .setKey 64 true, .draw, .setKey 65 true,
        .setKey 65 false, .draw]
    let events := start.keyHistory painter actions
    painter.Confined ∧
      events = [.closed, .closed, .closed, .told 64 true, .reset, .asked ⟨[], []⟩ 0.0 0.0,
        .asked ⟨[], []⟩ 65.0 0.0, .told 65 true, .told 65 false, .asked ⟨[65], []⟩ 0.0 65.0,
        .asked ⟨[], []⟩ 65.0 0.0] ∧
      (KeyLedger.after events).presses = [⟨65, .taken⟩] ∧
      (KeyLedger.after events).Describes (start.after painter actions).around.keyboard ∧
      KeyLedger.Explains {} events := by
  intro painter disk start actions events
  have confined : painter.Confined := fun _ _ _ => ⟨[], rfl⟩
  let loaded := (start.load "/script" false).effect
  let ready := (loaded.compile {}).effect.attach ()
  let play : List (HostAction Unit) :=
    [.setKey 64 true, .draw, .setKey 65 true, .setKey 65 false, .draw]
  have grounded : loaded.Grounded {} := grounded_load (grounded_new disk {}) "/script" false
  have played := playKeys_of_closed confined grounded (by decide +kernel) (by decide +kernel) () 0
    (by decide +kernel) play (by decide)
  have told : (ready.playKeys painter ((loaded.programs {}).getD 0 []) play).1 =
      [.told 64 true, .reset, .asked ⟨[], []⟩ 0.0 0.0, .asked ⟨[], []⟩ 65.0 0.0, .told 65 true,
        .told 65 false, .asked ⟨[65], []⟩ 0.0 65.0, .asked ⟨[], []⟩ 65.0 0.0] := by
    decide +kernel
  have happened : events = [.closed, .closed, .closed] ++ ready.keyHistory painter play :=
    keyHistory_append start painter [.load "/script" false, .compile {}, .attach ()] play
  rw [played] at told
  dsimp only at told
  rw [told] at happened
  rcases keyboard_follows_ledger confined disk {} actions with ⟨_, describes, explains⟩
  refine ⟨confined, happened, ?_, describes, explains⟩
  rw [happened]
  decide +kernel

/-- The last that is told of key zero is a press, but the key is not down, and drawing code that
asks after it gets zero. -/
theorem pressed_zero_is_not_down :
    let painter : Painter Unit :=
      { size := fun _ => (4, 3), scale := fun _ => 1.0, reset := fun surface => surface
        call := fun _ _ effect => (0.0, effect), takeDirty := fun surface => (true, surface) }
    let disk := Disk.empty.addFile ["script"] "@gfx\ngfx_getchar(0.5);\n".toUTF8
    let start : Effect Unit := Effect.new disk {}
    let actions : List (HostAction Unit) :=
      [.load "/script" false, .compile {}, .attach (), .draw, .setKey 0 true, .draw]
    let effect := start.after painter actions
    let events := start.keyHistory painter actions
    let ledger := KeyLedger.after events
    events = [.closed, .closed, .closed, .reset, .asked ⟨[], []⟩ 0.5 0.0, .told 0 true,
        .asked ⟨[], []⟩ 0.5 0.0] ∧
      ledger.last? 0 = some true ∧ effect.around.keyboard.isDown 0 = false ∧
      ¬ ∀ key, effect.around.keyboard.isDown key = true ↔ ledger.last? key = some true := by
  intro painter disk start actions effect events ledger
  have confined : painter.Confined := fun _ _ _ => ⟨[], rfl⟩
  let loaded := (start.load "/script" false).effect
  let ready := (loaded.compile {}).effect.attach ()
  let play : List (HostAction Unit) := [.draw, .setKey 0 true, .draw]
  have grounded : loaded.Grounded {} := grounded_load (grounded_new disk {}) "/script" false
  have played := playKeys_of_closed confined grounded (by decide +kernel) (by decide +kernel) () 0
    (by decide +kernel) play (by decide)
  have told : (ready.playKeys painter ((loaded.programs {}).getD 0 []) play).1 =
      [.reset, .asked ⟨[], []⟩ 0.5 0.0, .told 0 true, .asked ⟨[], []⟩ 0.5 0.0] := by
    decide +kernel
  have up : (ready.playKeys painter ((loaded.programs {}).getD 0 [])
      play).2.around.keyboard.isDown 0 = false := by
    decide +kernel
  rw [played] at told up
  dsimp only at told up
  have happened : events = [.closed, .closed, .closed] ++ ready.keyHistory painter play :=
    keyHistory_append start painter [.load "/script" false, .compile {}, .attach ()] play
  rw [told] at happened
  have pressed : ledger.last? 0 = some true := by
    simp only [ledger, happened]
    decide +kernel
  refine ⟨happened, pressed, up, fun all => ?_⟩
  exact Bool.false_ne_true (up.symm.trans ((all 0).mpr pressed))

end Effect
end EffectHost

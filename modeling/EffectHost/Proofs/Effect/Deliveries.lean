import EffectHost.Proofs.Effect.IdleSerializer
import EffectHost.Proofs.Midi.Received

/-!
# Which events the code of an effect gets

An event that the host sends is accepted once, and gets the number of events that were
accepted before it.  What a call gets is noted under this number, together with the reader
that the script uses.  Within a cycle a reader goes forward only, and behind a cycle the log
is empty, so the numbers that code gets in cycles grow.  Init code that is due when a state
is saved or restored goes forward as well, but the cycle that follows reads from the
beginning again.
-/

namespace EffectHost

open MidiEvent MidiFunctions

/-! ## Calls -/

namespace CodeCall

/-- The event that the call gets, and the input afterwards. -/
def received (made : CodeCall) : Option MidiEvent × MidiLog :=
  match HostFunction.ofName? made.call.name with
  | some function => function.received made.caller made.call.args made.call.state
  | none => (none, made.call.state.2.input)

/-- The reader that the script uses. -/
def reader (made : CodeCall) : LogReader :=
  .ofScript (isExtended made.call.state.1)

variable {made : CodeCall} {reader : LogReader} {passed ahead : List MidiEvent}

theorem input_call (facts : Facts) (made : CodeCall) :
    (HostFunction.call facts made.caller made.call.name made.call.args
      made.call.state).2.2.input = made.received.2 := by
  rw [HostFunction.call, received]
  cases HostFunction.ofName? made.call.name with
  | none => rfl
  | some function => exact HostFunction.input_run facts made.caller function _ _

/-- A call leaves the input alone, or it looks for an event by its reader. -/
theorem received_cases (made : CodeCall) :
    made.received = (none, made.call.state.2.input) ∨
      ∃ accept : Acceptance, made.received = MidiFunctions.received accept
        (isExtended made.call.state.1) made.call.state.1 made.call.state.2.input := by
  rw [received]
  split
  · next function _ =>
      rw [HostFunction.received]
      split
      · next accept _ =>
          split
          · exact Or.inr ⟨accept, rfl⟩
          · exact Or.inl rfl
      · exact Or.inl rfl
  · exact Or.inl rfl

/-- The cursor of the reader ends up behind the event that the call gets. -/
theorem parted_received (made : CodeCall)
    (parted : made.call.state.2.input.Parted made.reader passed ahead) :
    ∃ skipped rest, ahead = skipped ++ (made.received.1.toList ++ rest) ∧
      made.received.2.Parted made.reader (passed ++ skipped ++ made.received.1.toList) rest := by
  rcases received_cases made with nothing | ⟨accept, looked⟩
  · rw [nothing]
    refine ⟨[], ahead, rfl, ?_⟩
    rw [Option.toList_none, List.append_nil, List.append_nil]
    exact parted
  · rw [looked]
    exact MidiFunctions.parted_received parted

/-- The cursors of other readers stay. -/
theorem parted_received_of_ne (different : reader ≠ made.reader)
    (parted : made.call.state.2.input.Parted reader passed ahead) :
    made.received.2.Parted reader passed ahead := by
  rcases received_cases made with nothing | ⟨accept, looked⟩
  · rw [nothing]
    exact parted
  · rw [looked]
    exact MidiFunctions.parted_received_of_ne different parted

end CodeCall

/-! ## What was accepted and what was delivered -/

/-- An event that a call got. -/
structure Delivery where
  /-- Number of the event among those that were accepted. -/
  number : Nat
  event : MidiEvent
  reader : LogReader
  /-- The call was made while a state was saved or restored. -/
  inState : Bool

/-- The same reader got both events, in cycles or in states, and the first one was accepted
before the second one. -/
def Delivery.Before (earlier later : Delivery) : Prop :=
  earlier.reader = later.reader → earlier.inState = later.inState → earlier.number < later.number

/-- What a call gets, if so many events were accepted before. -/
def CodeCall.delivery? (inState : Bool) (accepted : Nat) (made : CodeCall) : Option Delivery :=
  made.received.1.map fun event =>
    { number := accepted - (made.received.2.aheadOf made.reader).length - 1
      event := event
      reader := made.reader
      inState := inState }

/-- The events that were accepted, and those that calls got. -/
structure MidiLedger where
  accepted : List MidiEvent
  deliveries : List Delivery := []

namespace MidiLedger

/-- Note what calls get. -/
def deliver (ledger : MidiLedger) (inState : Bool) (calls : List CodeCall) : MidiLedger :=
  { ledger with
    deliveries := ledger.deliveries ++
      calls.filterMap (CodeCall.delivery? inState ledger.accepted.length) }

@[simp] theorem deliver_nil (ledger : MidiLedger) (inState : Bool) :
    ledger.deliver inState [] = ledger := by
  rw [deliver, List.filterMap_nil, List.append_nil]

theorem deliver_append (ledger : MidiLedger) (inState : Bool) (first second : List CodeCall) :
    ledger.deliver inState (first ++ second) =
      (ledger.deliver inState first).deliver inState second := by
  simp only [deliver, List.filterMap_append, List.append_assoc]

/-- The log holds the end of what was accepted, and each cursor is behind what its reader got
here.  Between cycles nothing that code got in a cycle is left in the log. -/
structure Sound (ledger : MidiLedger) (inState : Bool) (input : MidiLog)
    (gone waiting : List MidiEvent) : Prop where
  split : ledger.accepted = gone ++ waiting
  cursors : ∀ reader, ∃ passed ahead, waiting = passed ++ ahead ∧
    input.Parted reader passed ahead ∧
      ∀ got ∈ ledger.deliveries, got.reader = reader → got.inState = inState →
        got.number < gone.length + passed.length
  settled : inState = true → ∀ got ∈ ledger.deliveries, got.inState = false →
    got.number < gone.length
  genuine : ∀ got ∈ ledger.deliveries, ledger.accepted[got.number]? = some got.event
  ordered : ledger.deliveries.Pairwise Delivery.Before

namespace Sound

variable {ledger : MidiLedger} {inState : Bool} {input : MidiLog}
  {gone waiting : List MidiEvent}

theorem holds (sound : ledger.Sound inState input gone waiting) : input.Holds waiting := by
  rcases sound.cursors .common with ⟨passed, ahead, rfl, parted, _⟩
  exact parted.holds

theorem lt_of_mem (sound : ledger.Sound inState input gone waiting) {got : Delivery}
    (member : got ∈ ledger.deliveries) : got.number < ledger.accepted.length :=
  (List.getElem?_eq_some_iff.mp (sound.genuine got member)).1

/-- Nothing was noted yet. -/
theorem start (parted : ∀ reader, ∃ passed ahead, waiting = passed ++ ahead ∧
    input.Parted reader passed ahead) :
    ({ accepted := waiting } : MidiLedger).Sound inState input [] waiting where
  split := rfl
  cursors := by
    intro reader
    rcases parted reader with ⟨passed, ahead, same, parted⟩
    exact ⟨passed, ahead, same, parted, nofun⟩
  settled := nofun
  genuine := nofun
  ordered := List.Pairwise.nil

/-- The cursors after a call, with what was noted before it. -/
theorem cursors_received {made : CodeCall}
    (sound : ledger.Sound inState made.call.state.2.input gone waiting) :
    (∃ passed skipped rest, waiting = passed ++ skipped ++ made.received.1.toList ++ rest ∧
      made.received.2.Parted made.reader (passed ++ skipped ++ made.received.1.toList) rest ∧
        ∀ got ∈ ledger.deliveries, got.reader = made.reader → got.inState = inState →
          got.number < gone.length + passed.length) ∧
    ∀ reader, reader ≠ made.reader → ∃ passed ahead, waiting = passed ++ ahead ∧
      made.received.2.Parted reader passed ahead ∧
        ∀ got ∈ ledger.deliveries, got.reader = reader → got.inState = inState →
          got.number < gone.length + passed.length := by
  constructor
  · rcases sound.cursors made.reader with ⟨passed, ahead, parts, parted, bounded⟩
    rcases made.parted_received parted with ⟨skipped, rest, found, moved⟩
    refine ⟨passed, skipped, rest, ?_, moved, bounded⟩
    rw [parts, found, List.append_assoc, List.append_assoc]
  · intro reader different
    rcases sound.cursors reader with ⟨passed, ahead, parts, parted, bounded⟩
    exact ⟨passed, ahead, parts, CodeCall.parted_received_of_ne different parted, bounded⟩

/-- A call that gets nothing may pass over events. -/
theorem call_none {made : CodeCall}
    (sound : ledger.Sound inState made.call.state.2.input gone waiting)
    (nothing : made.received.1 = none) : ledger.Sound inState made.received.2 gone waiting := by
  rcases sound.cursors_received with ⟨⟨passed, skipped, rest, parts, moved, bounded⟩, others⟩
  rw [nothing, Option.toList_none, List.append_nil] at parts moved
  refine ⟨sound.split, ?_, sound.settled, sound.genuine, sound.ordered⟩
  intro reader
  by_cases mine : reader = made.reader
  · subst mine
    refine ⟨passed ++ skipped, rest, parts, moved, ?_⟩
    intro got member own here
    rw [List.length_append]
    exact Nat.lt_of_lt_of_le (bounded got member own here) (by omega)
  · exact others reader mine

/-- A call gets the event of the number that is noted, and nothing that its reader has in
front of its cursor was noted before. -/
theorem call_some {made : CodeCall} {event : MidiEvent}
    (sound : ledger.Sound inState made.call.state.2.input gone waiting)
    (something : made.received.1 = some event) :
    ∃ got, made.delivery? inState ledger.accepted.length = some got ∧
      { ledger with deliveries := ledger.deliveries ++ [got] }.Sound inState made.received.2
        gone waiting := by
  rcases sound.cursors_received with ⟨⟨passed, skipped, rest, parts, moved, bounded⟩, others⟩
  rw [something, Option.toList_some] at parts moved
  let number := gone.length + passed.length + skipped.length
  have accepted : ledger.accepted = (gone ++ passed ++ skipped) ++ event :: rest := by
    rw [sound.split, parts]
    simp only [List.append_assoc, List.cons_append, List.nil_append]
  have length : ledger.accepted.length = number + 1 + rest.length := by
    rw [accepted]
    simp only [List.length_append, List.length_cons, number]
    omega
  have told : ledger.accepted.length - (made.received.2.aheadOf made.reader).length - 1 =
      number := by
    rw [moved.aheadOf_eq]
    omega
  have front : (gone ++ passed ++ skipped).length = number := by
    simp only [List.length_append, number]
  have noted : ledger.accepted[number]? = some event := by
    rw [accepted, List.getElem?_append_right (Nat.le_of_eq front), front, Nat.sub_self]
    rfl
  let got : Delivery := ⟨number, event, made.reader, inState⟩
  refine ⟨got, ?_, sound.split, ?_, ?_, ?_, ?_⟩
  · rw [CodeCall.delivery?, something, Option.map_some, told]
  · intro reader
    by_cases mine : reader = made.reader
    · subst mine
      refine ⟨passed ++ skipped ++ [event], rest, parts, moved, ?_⟩
      have behind : gone.length + (passed ++ skipped ++ [event]).length = number + 1 := by
        simp only [List.length_append, List.length_singleton, number]
        omega
      intro other member own here
      rw [behind]
      rcases List.mem_append.mp member with older | new
      · exact Nat.lt_of_lt_of_le (bounded other older own here) (by omega)
      · cases List.mem_singleton.mp new
        exact Nat.lt_succ_self number
    · rcases others reader mine with ⟨passed, ahead, parts, parted, bounded⟩
      refine ⟨passed, ahead, parts, parted, ?_⟩
      intro other member own here
      rcases List.mem_append.mp member with older | new
      · exact bounded other older own here
      · cases List.mem_singleton.mp new
        exact absurd own.symm mine
  · intro here other member elsewhere
    rcases List.mem_append.mp member with older | new
    · exact sound.settled here other older elsewhere
    · cases List.mem_singleton.mp new
      cases here.symm.trans elsewhere
  · exact List.forall_mem_append.mpr ⟨sound.genuine, List.forall_mem_singleton.mpr noted⟩
  · refine List.pairwise_append.mpr ⟨sound.ordered, List.pairwise_singleton _ _, ?_⟩
    intro earlier member later new
    cases List.mem_singleton.mp new
    intro own here
    exact Nat.lt_of_lt_of_le (bounded earlier member own here) (Nat.le_add_right _ _)

/-- What a call gets is noted under its number. -/
theorem call (made : CodeCall)
    (sound : ledger.Sound inState made.call.state.2.input gone waiting) :
    (ledger.deliver inState [made]).Sound inState made.received.2 gone waiting := by
  rw [deliver, List.filterMap_cons, List.filterMap_nil]
  cases event? : made.received.1 with
  | none =>
      have nothing : made.delivery? inState ledger.accepted.length = none := by
        rw [CodeCall.delivery?, event?, Option.map_none]
      rw [nothing, List.append_nil]
      exact sound.call_none event?
  | some event =>
      rcases sound.call_some event? with ⟨got, noted, after⟩
      rw [noted]
      exact after

/-- The host sends an event. -/
theorem push (sound : ledger.Sound inState input gone waiting) (event : MidiEvent) :
    ∃ more, { ledger with
      accepted := ledger.accepted ++ if (input.push event).1 then [event] else [] }.Sound inState
        (input.push event).2 gone (waiting ++ more) := by
  cases accepted : input.accepts event with
  | false =>
      rw [MidiLog.push_of_not_accepts accepted]
      refine ⟨[], ?_⟩
      rw [if_neg Bool.false_ne_true, List.append_nil, List.append_nil]
      exact sound
  | true =>
      rw [MidiLog.push_of_accepts accepted]
      rw [MidiLog.accepts, Bool.and_eq_true] at accepted
      rw [if_pos rfl]
      refine ⟨[event], ?_, ?_, sound.settled, ?_, sound.ordered⟩
      · rw [sound.split, List.append_assoc]
      · intro reader
        rcases sound.cursors reader with ⟨passed, ahead, rfl, parted, bounded⟩
        exact ⟨passed, ahead ++ [event], List.append_assoc _ _ _, parted.append accepted.1,
          bounded⟩
      · intro got member
        rw [List.getElem?_append_left (sound.lt_of_mem member)]
        exact sound.genuine got member

/-- A cycle begins and reads the input from its beginning. -/
theorem rewind (sound : ledger.Sound true input gone waiting) :
    ledger.Sound false input.rewind gone waiting where
  split := sound.split
  cursors := by
    intro reader
    refine ⟨[], waiting, rfl, ⟨sound.holds.of_bytes rfl, LogHistory.cursorOf_rewind input reader⟩,
      ?_⟩
    intro got member _ here
    exact sound.settled rfl got member here
  settled := fun here => absurd here Bool.false_ne_true
  genuine := sound.genuine
  ordered := sound.ordered

/-- A cycle ends and drops the input. -/
theorem clear (sound : ledger.Sound inState input gone waiting) :
    ledger.Sound true input.clear ledger.accepted [] where
  split := (List.append_nil _).symm
  cursors := by
    intro reader
    refine ⟨[], [], rfl, ⟨MidiLog.holds_clear input, LogHistory.cursorOf_rewind _ reader⟩, ?_⟩
    intro got member _ _
    exact sound.lt_of_mem member
  settled := fun _ got member _ => sound.lt_of_mem member
  genuine := sound.genuine
  ordered := sound.ordered

end Sound
end MidiLedger

/-! ## Steps -/

/-- The step drops the input or reads it from its beginning. -/
def Step.movesInput : Step → Bool
  | .begin | .passOn _ | .clearInput => true
  | _ => false

theorem Step.movesInput_of_isInner {step : Step} (inner : step.isInner = true) :
    step.movesInput = false := by
  cases step with
  | begin | passOn triggers | clearInput => cases inner
  | _ => rfl

namespace Effect

variable {σ : Type} {painter : Painter σ} {config : Config} {ledger : MidiLedger}
  {inState : Bool} {gone waiting : List MidiEvent}

theorem input_startInit (effect : Effect σ) :
    effect.startInit.around.input = effect.around.input := by
  rw [startInit]
  dsimp only
  split <;> rfl

theorem sound_run {effect : Effect σ}
    (sound : ledger.Sound inState effect.around.input gone waiting) (caller : Caller)
    (program : Program) :
    (ledger.deliver inState ((Code.calls (effect.codeHost caller) program
      (effect.store, effect.around)).map (CodeCall.mk caller))).Sound inState
        (effect.run caller program).around.input gone waiting := by
  refine Code.calls_preserves (effect.codeHost caller)
    (fun around past => (ledger.deliver inState (past.map (CodeCall.mk caller))).Sound inState
      around.input gone waiting) ?_ program (effect.store, effect.around) ?_
  · intro name args state past before
    have after := before.call ⟨caller, name, args, state⟩
    rw [← CodeCall.input_call effect.facts] at after
    rw [List.map_append, MidiLedger.deliver_append]
    exact after
  · rw [List.map_nil, MidiLedger.deliver_nil]
    exact sound

/-- A step that leaves the input where it is notes what its calls get. -/
theorem sound_perform {effect : Effect σ}
    (sound : ledger.Sound inState effect.around.input gone waiting) {step : Step}
    (still : step.movesInput = false) :
    (ledger.deliver inState (effect.callsOf step)).Sound inState
      (effect.perform step).around.input gone waiting := by
  cases step with
  | begin | passOn triggers | clearInput => cases still
  | run caller id => exact sound_run sound caller (effect.programOf id)
  | startInit =>
      rw [callsOf_of_program? effect rfl, MidiLedger.deliver_nil, perform, input_startInit]
      exact sound
  | _ =>
      rw [callsOf_of_program? effect rfl, MidiLedger.deliver_nil]
      exact sound

theorem sound_performAll {effect : Effect σ}
    (sound : ledger.Sound inState effect.around.input gone waiting) {steps : List Step}
    (still : ∀ step ∈ steps, step.movesInput = false) :
    (ledger.deliver inState (effect.callsIn steps)).Sound inState
      (effect.performAll steps).around.input gone waiting := by
  induction steps generalizing effect ledger with
  | nil =>
      rw [callsIn_nil, MidiLedger.deliver_nil]
      exact sound
  | cons step others ih =>
      rcases List.forall_mem_cons.mp still with ⟨first, rest⟩
      rw [callsIn, MidiLedger.deliver_append]
      exact ih (sound_perform sound first) rest

/-- A cycle begins, goes on without moving the input, and drops it in the end. -/
theorem cycleSteps_parts {effect : Effect σ}
    (informed : effect.isCompiled = true → effect.hasInfo = true)
    (inputs outputs : List Channel) (frames : Nat) :
    ∃ inner last, effect.cycleSteps inputs outputs frames = .begin :: inner ++ [last] ∧
      (∀ step ∈ inner, step.isInner = true) ∧
        (last = .clearInput ∨ ∃ triggers, last = .passOn triggers) := by
  rw [cycleSteps]
  split
  · exact ⟨[], .clearInput, rfl, List.forall_mem_nil _, Or.inl rfl⟩
  · next compiled =>
      split
      · exact ⟨[], _, rfl, List.forall_mem_nil _, Or.inr ⟨_, rfl⟩⟩
      · rw [Bool.not_eq_true', Bool.not_eq_false] at compiled
        rcases isInner_blockSteps effect inputs outputs frames with ⟨block, same, inner⟩
        refine ⟨effect.dueInitSteps ++ [.noteMoves] ++ block, .clearInput, ?_, ?_, Or.inl rfl⟩
        · rw [if_pos (informed compiled), same]
          simp only [List.cons_append, List.append_assoc]
        · rw [List.forall_mem_append, List.forall_mem_append]
          exact ⟨⟨isInner_dueInitSteps effect, List.forall_mem_singleton.mpr rfl⟩, inner⟩

/-- What code gets in a cycle is noted, and nothing is left behind the cycle. -/
theorem sound_process {effect : Effect σ}
    (sound : ledger.Sound true effect.around.input gone waiting)
    (informed : effect.isCompiled = true → effect.hasInfo = true) (precision : Precision)
    (inputs outputs : List Channel) (frames : Nat) :
    let noted := ledger.deliver false
      (effect.callsIn (effect.cycleSteps inputs outputs frames))
    noted.Sound true (effect.process precision inputs outputs frames).2.around.input
      ledger.accepted [] := by
  rcases cycleSteps_parts informed inputs outputs frames with ⟨inner, last, same, plain, ended⟩
  have begun : ledger.Sound false effect.beginCycle.around.input gone waiting := sound.rewind
  have ran := sound_performAll begun
    (fun step member => Step.movesInput_of_isInner (plain step member))
  have noted : effect.callsIn (.begin :: inner ++ [last]) =
      effect.beginCycle.callsIn inner := by
    have quiet : last.program? = none := by
      rcases ended with rfl | ⟨triggers, rfl⟩ <;> rfl
    rw [List.cons_append, callsIn, callsOf_of_program? effect rfl, List.nil_append,
      callsIn_append, callsIn, callsOf_of_program? _ quiet, callsIn_nil, List.append_nil,
      List.append_nil]
    rfl
  rw [process_eq_performAll, same, noted, List.cons_append, performAll_cons, performAll_append]
  rcases ended with rfl | ⟨triggers, rfl⟩
  · exact ran.clear
  · exact ran.clear

theorem still_serializeSteps (effect : Effect σ) (mode : SerializeMode) (data : ByteArray) :
    ∀ step ∈ effect.serializeSteps mode data, step.movesInput = false :=
  effect.forall_serializeSteps mode data rfl rfl
    (fun _ inner _ => Step.movesInput_of_isInner inner) (fun _ => rfl) fun _ => rfl

theorem still_saveSteps (effect : Effect σ) :
    ∀ step ∈ effect.saveSteps, step.movesInput = false := by
  rw [saveSteps]
  split
  · exact still_serializeSteps effect .writing ByteArray.empty
  · exact List.forall_mem_nil _

theorem still_loadSteps (effect : Effect σ) (state : EffectState) :
    ∀ step ∈ effect.loadSteps state, step.movesInput = false := by
  rw [loadSteps]
  split
  · exact List.forall_mem_cons.mpr ⟨rfl, still_serializeSteps effect .reading state.data⟩
  · exact List.forall_mem_nil _

/-! ## Moments -/

/-- The events that are accepted in a moment. -/
def acceptedIn (effect : Effect σ) : Moment σ → List MidiEvent
  | .cycle (.sendMidi event) => if (effect.sendMidi event).1 then [event] else []
  | _ => []

end Effect

/-- A state is saved or restored. -/
def Moment.isState {σ : Type} : Moment σ → Bool
  | .saveState | .loadState _ => true
  | _ => false

namespace MidiLedger

variable {σ : Type}

/-- Note what calls get in a moment, and which events are accepted then. -/
def note (ledger : MidiLedger) (effect : Effect σ) (next : Moment σ) : MidiLedger :=
  let noted := ledger.deliver next.isState (effect.callsIn (effect.stepsOf next))
  { noted with accepted := noted.accepted ++ effect.acceptedIn next }

/-- Note what happens in moments in a row. -/
def through (painter : Painter σ) : MidiLedger → Effect σ → List (Moment σ) → MidiLedger
  | ledger, _, [] => ledger
  | ledger, effect, next :: others =>
    (ledger.note effect next).through painter (effect.moment painter next) others

theorem note_of_quiet (ledger : MidiLedger) {effect : Effect σ} {next : Moment σ}
    (quiet : effect.stepsOf next = []) (none : effect.acceptedIn next = []) :
    ledger.note effect next = ledger := by
  rw [note, quiet, none, Effect.callsIn_nil, deliver_nil, List.append_nil]

theorem note_of_steps (ledger : MidiLedger) {effect : Effect σ} {next : Moment σ}
    (none : effect.acceptedIn next = []) :
    ledger.note effect next =
      ledger.deliver next.isState (effect.callsIn (effect.stepsOf next)) := by
  rw [note, none, List.append_nil]

end MidiLedger

namespace Effect

variable {σ : Type} {painter : Painter σ} {config : Config} {ledger : MidiLedger}
  {gone waiting : List MidiEvent}

/-- Where no code runs and no event is sent, there is nothing to note. -/
theorem sound_of_quiet {effect : Effect σ} {next : Moment σ}
    (sound : ledger.Sound true effect.around.input gone waiting)
    (quiet : effect.stepsOf next = []) (none : effect.acceptedIn next = [])
    (same : (effect.moment painter next).around.input = effect.around.input) :
    ∃ gone waiting, (ledger.note effect next).Sound true
      (effect.moment painter next).around.input gone waiting := by
  rw [ledger.note_of_quiet quiet none, same]
  exact ⟨gone, waiting, sound⟩

theorem sound_actInCycle {effect : Effect σ}
    (sound : ledger.Sound true effect.around.input gone waiting)
    (informed : effect.isCompiled = true → effect.hasInfo = true) (action : CycleAction) :
    ∃ gone waiting, (ledger.note effect (.cycle action)).Sound true
      (effect.moment painter (.cycle action)).around.input gone waiting := by
  cases action with
  | process precision inputs outputs frames =>
      rw [ledger.note_of_steps rfl]
      exact ⟨_, _, sound_process sound informed precision inputs outputs frames⟩
  | sendMidi event =>
      rcases sound.push event with ⟨more, pushed⟩
      refine ⟨gone, waiting ++ more, ?_⟩
      have silent : effect.stepsOf (.cycle (.sendMidi event)) = [] := rfl
      rw [MidiLedger.note, silent, callsIn_nil, MidiLedger.deliver_nil]
      exact pushed
  | _ =>
      refine sound_of_quiet sound rfl rfl ?_
      rw [moment]
      exact (onlyTells_actInCycle effect _ rfl).input

/-- Every moment notes what calls get in it. -/
theorem sound_moment {effect : Effect σ}
    (sound : ledger.Sound true effect.around.input gone waiting)
    (informed : effect.isCompiled = true → effect.hasInfo = true) (next : Moment σ) :
    ∃ gone waiting, (ledger.note effect next).Sound true
      (effect.moment painter next).around.input gone waiting := by
  cases next with
  | cycle action => exact sound_actInCycle sound informed action
  | saveState =>
      refine ⟨gone, waiting, ?_⟩
      rw [ledger.note_of_steps rfl, moment, saveState_eq_performAll]
      exact sound_performAll sound (still_saveSteps effect)
  | loadState state =>
      refine ⟨gone, waiting, ?_⟩
      rw [ledger.note_of_steps rfl, moment, loadState_eq_performAll]
      exact sound_performAll sound (still_loadSteps effect state)
  | setKey key pressed =>
      refine sound_of_quiet sound rfl rfl ?_
      simp only [moment, setKey]
      split <;> rfl
  | setMouse modifiers x y buttons wheel sideWheel =>
      refine sound_of_quiet sound rfl rfl ?_
      simp only [moment, setMouse]
      split <;> rfl
  | beginPass surface =>
      refine sound_of_quiet sound rfl rfl ?_
      simp only [moment, setBusy, updateDrawing, tellSize, setUpDueDrawing]
      split <;> rfl
  | endPass =>
      refine sound_of_quiet sound rfl rfl ?_
      simp only [moment, takeDirty]
      split <;> rfl
  | call facts function args =>
      refine sound_of_quiet sound rfl rfl ?_
      have without : drawingCaller.mayUseMidi = false := rfl
      refine (HostFunction.input_run facts drawingCaller function args
        (effect.store, effect.around)).trans ?_
      rw [HostFunction.received_of_not_mayUseMidi without]
  | attach surface | changeDisk disk | assign cell value | writeItem position value
  | writeRange address values | setString id text | paint change =>
      exact sound_of_quiet sound rfl rfl rfl

theorem sound_through {effect : Effect σ}
    (sound : ledger.Sound true effect.around.input gone waiting)
    (reached : Reached painter config effect) (moments : List (Moment σ)) :
    ∃ gone waiting, (ledger.through painter effect moments).Sound true
      (effect.through painter moments).around.input gone waiting := by
  induction moments generalizing effect ledger gone waiting with
  | nil => exact ⟨gone, waiting, sound⟩
  | cons next others ih =>
      have step : ∃ gone waiting, (ledger.note effect next).Sound true
          (effect.moment painter next).around.input gone waiting :=
        sound_moment sound reached.grounded.hasInfo next
      rcases step with ⟨_, _, noted⟩
      exact ih noted (reached.moment next)

/-- Wherever an effect has been led, every cursor of its input stands between events. -/
theorem Reached.parted {effect : Effect σ} (reached : Reached painter config effect) :
    ∃ waiting, ∀ reader, ∃ passed ahead, waiting = passed ++ ahead ∧
      effect.around.input.Parted reader passed ahead := by
  induction reached with
  | new disk =>
      refine ⟨[], fun reader => ⟨[], [], rfl, ⟨rfl, List.forall_mem_nil _⟩, ?_⟩⟩
      exact LogHistory.cursorOf_rewind (Effect.new disk config : Effect σ).around.input reader
  | load before path ignoreImports ih =>
      rw [Effect.load]
      split <;> exact ih
  | compile before options ih =>
      rw [Effect.compile]
      split
      · split <;> exact ih
      · exact ih
  | unloadCode before ih | unload before ih => exact ih
  | moment before next ih =>
      rcases ih with ⟨waiting, parted⟩
      rcases sound_moment (.start parted) before.grounded.hasInfo next with
        ⟨gone, after, sound⟩
      refine ⟨after, fun reader => ?_⟩
      rcases sound.cursors reader with ⟨passed, ahead, same, parted, _⟩
      exact ⟨passed, ahead, same, parted⟩

/-! ## States in which no event is received -/

/-- Code that finds no events gets none and leaves none. -/
theorem unheard_run {effect : Effect σ}
    (empty : effect.around.input.Drained) (caller : Caller)
    (program : Program) :
    (effect.run caller program).around.input.Drained ∧
      ∀ made ∈ (Code.calls (effect.codeHost caller) program
        (effect.store, effect.around)).map (CodeCall.mk caller), made.received.1 = none := by
  refine Code.calls_preserves (effect.codeHost caller)
    (fun around past => around.input.Drained ∧
      ∀ made ∈ past.map (CodeCall.mk caller), made.received.1 = none) ?_ program
        (effect.store, effect.around) ⟨empty, List.forall_mem_nil _⟩
  rintro name args state past ⟨before, none⟩
  let made : CodeCall := ⟨caller, name, args, state⟩
  rcases made.parted_received (before made.reader) with ⟨skipped, rest, parts, moved⟩
  rcases List.append_eq_nil_iff.mp parts.symm with ⟨rfl, others⟩
  rcases List.append_eq_nil_iff.mp others with ⟨got, rfl⟩
  refine ⟨?_, ?_⟩
  · refine (congrArg MidiLog.Drained (CodeCall.input_call effect.facts made)).mpr ?_
    intro reader
    by_cases mine : reader = made.reader
    · rw [mine]
      rwa [got] at moved
    · exact CodeCall.parted_received_of_ne mine (before reader)
  · rw [List.map_append]
    exact List.forall_mem_append.mpr
      ⟨none, List.forall_mem_singleton.mpr (Option.toList_eq_nil_iff.mp got)⟩

theorem unheard_callsIn {effect : Effect σ}
    (empty : effect.around.input.Drained) {steps : List Step}
    (still : ∀ step ∈ steps, step.movesInput = false) :
    ∀ made ∈ effect.callsIn steps, made.received.1 = none := by
  induction steps generalizing effect with
  | nil => exact List.forall_mem_nil _
  | cons step others ih =>
      rcases List.forall_mem_cons.mp still with ⟨first, rest⟩
      rw [callsIn]
      cases step with
      | begin | passOn triggers | clearInput => cases first
      | run caller id =>
          rcases unheard_run empty caller (effect.programOf id) with ⟨after, none⟩
          exact List.forall_mem_append.mpr ⟨none, ih after rest⟩
      | startInit =>
          have after : effect.startInit.around.input.Drained := by
            rw [input_startInit]
            exact empty
          exact ih after rest
      | _ => exact ih empty rest

/-- All code in the steps is that of one caller. -/
theorem caller_of_mem_callsIn {effect : Effect σ} {caller : Caller} {steps : List Step}
    (own : ∀ other id, Step.run other id ∈ steps → other = caller) :
    ∀ made ∈ effect.callsIn steps, made.caller = caller := by
  induction steps generalizing effect with
  | nil => exact List.forall_mem_nil _
  | cons step others ih =>
      refine List.forall_mem_append.mpr ⟨?_, ?_⟩
      · cases step with
        | run other id =>
            intro made member
            rcases List.mem_map.mp member with ⟨call, _, rfl⟩
            exact own other id List.mem_cons_self
        | _ => exact List.forall_mem_nil _
      · exact ih fun other id member => own other id (List.mem_cons_of_mem _ member)

theorem received_of_serializeCaller {made : CodeCall} (own : made.caller = serializeCaller) :
    made.received.1 = none := by
  have without : made.caller.mayUseMidi = false := by
    rw [own]
    rfl
  rw [CodeCall.received]
  split
  · rw [HostFunction.received_of_not_mayUseMidi without]
  · rfl

/-- Without init, the serialize section is the only code that runs for a state. -/
theorem caller_serializeSteps {effect : Effect σ}
    (notDue : effect.initPrecedesSerialize = false) (mode : SerializeMode) (data : ByteArray) :
    ∀ other id, Step.run other id ∈ effect.serializeSteps mode data →
      other = serializeCaller := by
  intro other id member
  rw [initPrecedesSerialize] at notDue
  rw [serializeSteps] at member
  split at member
  · next compiled =>
      rw [compiled, Bool.and_true] at notDue
      have nothing : effect.dueInitSteps = [] := by
        rw [dueInitSteps, notDue, Bool.false_and, if_neg Bool.false_ne_true]
      simp only [nothing, List.nil_append, List.cons_append, List.mem_cons, List.mem_append,
        List.not_mem_nil, or_false, reduceCtorEq, false_or] at member
      split at member
      · rcases List.mem_map.mp member with ⟨_, _, same⟩
        cases same
        rfl
      · cases member
  · simp at member

/-- Code for a state gets no event, if init is not due or there are no events. -/
theorem unheard_state {effect : Effect σ} {next : Moment σ} (isState : next.isState = true)
    (quiet : effect.initPrecedesSerialize = true →
      effect.around.input.Drained) :
    ∀ made ∈ effect.callsIn (effect.stepsOf next), made.received.1 = none := by
  cases due : effect.initPrecedesSerialize with
  | true =>
      cases next with
      | saveState => exact unheard_callsIn (quiet due) (still_saveSteps effect)
      | loadState state => exact unheard_callsIn (quiet due) (still_loadSteps effect state)
      | _ => cases isState
  | false =>
      intro made member
      apply received_of_serializeCaller
      refine caller_of_mem_callsIn ?_ made member
      intro other id ran
      cases next with
      | saveState =>
          rw [stepsOf, saveSteps] at ran
          split at ran
          · exact caller_serializeSteps due _ _ other id ran
          · cases ran
      | loadState state =>
          rw [stepsOf, loadSteps] at ran
          split at ran
          · rcases List.mem_cons.mp ran with same | later
            · cases same
            · exact caller_serializeSteps due _ _ other id later
          · cases ran
      | _ => cases isState

theorem Reached.drained {effect : Effect σ} (reached : Reached painter config effect)
    (none : effect.around.input.events = []) : effect.around.input.Drained := by
  rcases reached.parted with ⟨waiting, parted⟩
  intro reader
  rcases parted reader with ⟨passed, ahead, same, parted⟩
  rw [parted.holds.events_eq] at none
  rcases List.append_eq_nil_iff.mp none with ⟨rfl, rfl⟩
  exact parted

/-- What a moment notes was received in a cycle, unless init hears events before a state. -/
theorem inState_note {effect : Effect σ} {next : Moment σ}
    (quiet : next.isState = true → effect.initPrecedesSerialize = true →
      effect.around.input.Drained)
    (before : ∀ got ∈ ledger.deliveries, got.inState = false) :
    ∀ got ∈ (ledger.note effect next).deliveries, got.inState = false := by
  refine List.forall_mem_append.mpr ⟨before, ?_⟩
  intro got member
  rcases List.mem_filterMap.mp member with ⟨made, ran, noted⟩
  rcases Option.map_eq_some_iff.mp noted with ⟨event, received, rfl⟩
  cases isState : next.isState with
  | false => rfl
  | true =>
      have nothing := unheard_state isState (quiet isState) made ran
      cases received.symm.trans nothing

theorem inState_through {effect : Effect σ} (reached : Reached painter config effect)
    (before : ∀ got ∈ ledger.deliveries, got.inState = false) {moments : List (Moment σ)}
    (quiet : ∀ early next late, moments = early ++ next :: late → next.isState = true →
      (effect.through painter early).initPrecedesSerialize = true →
        (effect.through painter early).around.input.events = []) :
    ∀ got ∈ (ledger.through painter effect moments).deliveries, got.inState = false := by
  induction moments generalizing effect ledger with
  | nil => exact before
  | cons next others ih =>
      refine ih (reached.moment next) (inState_note ?_ before) ?_
      · exact fun isState due => reached.drained (quiet [] next others rfl isState due)
      · intro early later late parts
        exact quiet (next :: early) later late (congrArg (next :: ·) parts)

/-- What calls get in moments in a row, and which events are accepted. -/
def midiLedger (effect : Effect σ) (painter : Painter σ) (moments : List (Moment σ)) :
    MidiLedger :=
  MidiLedger.through painter { accepted := effect.around.input.events } effect moments

/-- Over any run, what a call gets is the accepted event of the number that it is noted
under.  A reader gets no event twice in cycles, and none twice while states are saved or
restored.  If init sections are never due in front of a serialize section while events wait,
code gets events in cycles only, and no reader gets an event twice. -/
theorem readers_get_events_once {effect : Effect σ} (reached : Reached painter config effect)
    (moments : List (Moment σ)) :
    let ledger := effect.midiLedger painter moments
    (∀ got ∈ ledger.deliveries, ledger.accepted[got.number]? = some got.event) ∧
      ledger.deliveries.Pairwise (fun earlier later => earlier.reader = later.reader →
        earlier.inState = later.inState → earlier.number < later.number) ∧
      ((∀ early next late, moments = early ++ next :: late → next.isState = true →
          (effect.through painter early).initPrecedesSerialize = true →
            (effect.through painter early).around.input.events = []) →
        ledger.deliveries.Pairwise fun earlier later =>
          earlier.reader = later.reader → earlier.number < later.number) := by
  intro ledger
  rcases reached.parted with ⟨waiting, parted⟩
  have all : effect.around.input.events = waiting := by
    rcases parted .common with ⟨passed, ahead, same, border⟩
    rw [same]
    exact border.holds.events_eq
  rw [← all] at parted
  rcases sound_through (.start parted) reached moments with ⟨_, _, sound⟩
  refine ⟨sound.genuine, sound.ordered, ?_⟩
  intro quiet
  have cycles : ∀ got ∈ ledger.deliveries, got.inState = false :=
    inState_through reached (List.forall_mem_nil _) quiet
  refine sound.ordered.imp_of_mem ?_
  intro earlier later first second ordered own
  exact ordered own ((cycles earlier first).trans (cycles later second).symm)

section

variable {base : Nat} {table : List Program}

/-- What calls get while a state is saved with all programs in the table. -/
theorem through_saveState_of_tells {effect : Effect σ} (tells : effect.Tells base table)
    (covers : Covers base table effect.saveSteps) (ledger : MidiLedger)
    (others : List (Moment σ)) :
    let save := effect.evaluate base table effect.saveSteps
    ledger.through painter effect (.saveState :: others) =
      (ledger.deliver true save.1).through painter save.2 others := by
  intro save
  have calls : save.1 = effect.callsIn effect.saveSteps :=
    congrArg Prod.fst (evaluate_eq tells covers)
  rw [MidiLedger.through, ledger.note_of_steps rfl, moment, saveState_of_tells tells covers, calls]
  rfl

/-- What calls get in a cycle with all programs in the table. -/
theorem through_process_of_tells {effect : Effect σ} (tells : effect.Tells base table)
    {inputs outputs : List Channel} {frames : Nat}
    (covers : Covers base table (effect.cycleSteps inputs outputs frames))
    (ledger : MidiLedger) (precision : Precision) (others : List (Moment σ)) :
    let play := effect.evaluate base table (effect.cycleSteps inputs outputs frames)
    ledger.through painter effect (.cycle (.process precision inputs outputs frames) :: others) =
      (ledger.deliver false play.1).through painter play.2 others := by
  intro play
  have calls : play.1 = effect.callsIn (effect.cycleSteps inputs outputs frames) :=
    congrArg Prod.fst (evaluate_eq tells covers)
  rw [MidiLedger.through, ledger.note_of_steps rfl, moment, actInCycle,
    process_of_tells tells covers, calls]
  rfl

theorem through_sendMidi (effect : Effect σ) (ledger : MidiLedger) (event : MidiEvent)
    (others : List (Moment σ)) :
    ledger.through painter effect (.cycle (.sendMidi event) :: others) =
      MidiLedger.through painter { ledger with
        accepted := ledger.accepted ++ if (effect.sendMidi event).1 then [event] else [] }
        (effect.sendMidi event).2 others := by
  have silent : effect.stepsOf (.cycle (.sendMidi event)) = [] := rfl
  rw [MidiLedger.through, MidiLedger.note, silent, callsIn_nil, MidiLedger.deliver_nil]
  rfl

theorem tells_sendMidi {effect : Effect σ} (tells : effect.Tells base table)
    (event : MidiEvent) : (effect.sendMidi event).2.Tells base table :=
  tells

end

/-- A state is saved before the first event is sent, so that init hears none.  The cycle
that follows gives the two events that are sent then, each of them once. -/
theorem readers_get_events_once_two :
    let painter : Painter Unit :=
      { size := fun _ => (4, 3), scale := fun _ => 1.0, reset := fun surface => surface
        call := fun _ _ effect => (0.0, effect)
        takeDirty := fun surface => (true, surface) }
    let source := "@init\nmidirecv(0, 0, 0);\n@block\nmidirecv(0, 0, 0);\n" ++
      "midirecv(0, 0, 0);\n@serialize\n"
    let disk := Disk.empty.addFile ["script"] source.toUTF8
    let loaded := (Effect.new disk {} : Effect Unit).load "/script" false
    let effect := (loaded.effect.compile {}).effect
    let cycles := [.cycle (.sendMidi ⟨0, 0, Bytes.pack [144, 60, 100]⟩),
      .cycle (.sendMidi ⟨0, 1, Bytes.pack [128, 60, 0]⟩), .cycle (.process .double [] [] 1)]
    let ledger := effect.midiLedger painter (.saveState :: cycles)
    Reached painter {} effect ∧ effect.initPrecedesSerialize = true ∧
      ledger.deliveries.map Delivery.number = [0, 1] ∧
      (∀ got ∈ ledger.deliveries, ledger.accepted[got.number]? = some got.event) ∧
      ledger.deliveries.Pairwise fun earlier later =>
        earlier.reader = later.reader → earlier.number < later.number := by
  intro painter source disk loaded effect cycles ledger
  have reached : Reached painter {} effect :=
    ((Reached.new disk).load "/script" false).compile {}
  let base := loaded.effect.rig.code.nextProgram
  let table := loaded.effect.programs {}
  have closed : loaded.effect.isClosed {} = true := by decide +kernel
  have succeeded : (loaded.effect.compile {}).result.isOk = true := by decide +kernel
  have grounded : loaded.effect.Grounded {} :=
    grounded_load (grounded_new disk {}) "/script" false
  have tells : effect.Tells base table := tells_compile grounded closed (result_of_isOk succeeded)
  let save := effect.evaluate base table effect.saveSteps
  let sent := ((save.2.sendMidi ⟨0, 0, Bytes.pack [144, 60, 100]⟩).2.sendMidi
    ⟨0, 1, Bytes.pack [128, 60, 0]⟩).2
  have covers : Covers base table effect.saveSteps ∧
      Covers base table (sent.cycleSteps [] [] 1) := by
    decide +kernel
  have tellsSaved : save.2.Tells base table := tells.evaluate covers.1
  have tellsSent : sent.Tells base table := tells_sendMidi (tells_sendMidi tellsSaved _) _
  have numbers : ledger.deliveries.map Delivery.number = [0, 1] := by
    simp only [ledger, midiLedger, cycles]
    rw [through_saveState_of_tells tells covers.1, through_sendMidi, through_sendMidi,
      through_process_of_tells tellsSent covers.2]
    decide +kernel
  rcases readers_get_events_once reached (.saveState :: cycles) with ⟨genuine, _, once⟩
  refine ⟨reached, by decide +kernel, numbers, genuine, once ?_⟩
  intro early next late parts isState _
  cases early with
  | nil =>
      have none : effect.around.input.events.isEmpty = true := by decide +kernel
      exact List.isEmpty_iff.mp none
  | cons head others =>
      have notState : ∀ later ∈ cycles, later.isState = false := by
        simp [cycles, Moment.isState]
      have member : next ∈ cycles := by
        rw [(List.cons.inj parts).2]
        exact List.mem_append_right _ List.mem_cons_self
      cases isState.symm.trans (notState next member)

/-- Init code that is due when a state is saved gets an event, and the cycle that follows
gives the same event to the same reader. -/
theorem init_gets_event_before_cycle :
    let painter : Painter Unit :=
      { size := fun _ => (4, 3), scale := fun _ => 1.0, reset := fun surface => surface
        call := fun _ _ effect => (0.0, effect)
        takeDirty := fun surface => (true, surface) }
    let source := "@init\nmidirecv(0, 0, 0);\n@block\nmidirecv(0, 0, 0);\n@serialize\n"
    let disk := Disk.empty.addFile ["script"] source.toUTF8
    let loaded := (Effect.new disk {} : Effect Unit).load "/script" false
    let effect := (loaded.effect.compile {}).effect
    let ledger := effect.midiLedger painter
      [.cycle (.sendMidi ⟨0, 0, Bytes.pack [144, 60, 100]⟩), .saveState,
        .cycle (.process .double [] [] 1)]
    effect.isCompiled = true ∧ ledger.accepted.length = 1 ∧
      ledger.deliveries.map (fun got => (got.number, got.reader, got.inState)) =
        [(0, .onBus 0, true), (0, .onBus 0, false)] := by
  intro painter source disk loaded effect ledger
  let base := loaded.effect.rig.code.nextProgram
  let table := loaded.effect.programs {}
  have closed : loaded.effect.isClosed {} = true := by decide +kernel
  have succeeded : (loaded.effect.compile {}).result.isOk = true := by decide +kernel
  have grounded : loaded.effect.Grounded {} :=
    grounded_load (grounded_new disk {}) "/script" false
  have tells : effect.Tells base table := tells_compile grounded closed (result_of_isOk succeeded)
  let sent := (effect.sendMidi ⟨0, 0, Bytes.pack [144, 60, 100]⟩).2
  have tellsSent : sent.Tells base table := tells_sendMidi tells _
  let save := sent.evaluate base table sent.saveSteps
  have covers : Covers base table sent.saveSteps ∧
      Covers base table (save.2.cycleSteps [] [] 1) := by
    decide +kernel
  have tellsSaved : save.2.Tells base table := tellsSent.evaluate covers.1
  simp only [ledger, midiLedger]
  rw [through_sendMidi, through_saveState_of_tells tellsSent covers.1,
    through_process_of_tells tellsSaved covers.2]
  decide +kernel

end Effect
end EffectHost

import EffectHost.Proofs.Host.Frame
import EffectHost.Proofs.Midi.Received

/-!
# What becomes of logs

All that host functions do to a MIDI log can also be done by its users: they push events,
read them, and start over.  So what is known of a log after any use is known of the logs of
an effect.  A log that has been emptied by any use is the log that it was in the beginning.
-/

namespace EffectHost

namespace MidiLog

variable {log next : MidiLog} {capacity : Nat} {extensible : Bool}

/-- Use of one log leads to another. -/
def LeadsTo (before after : MidiLog) : Prop :=
  ∃ actions, after = (LogHistory.after { log := before } actions).log

theorem LeadsTo.refl (log : MidiLog) : log.LeadsTo log :=
  ⟨[], rfl⟩

/-- What becomes of a log does not depend on what its user knows. -/
theorem log_act_congr {one two : LogHistory} (same : one.log = two.log) (action : LogAction) :
    (one.act action).log = (two.act action).log := by
  cases action <;> simp only [LogHistory.act, LogHistory.noteRead, LogHistory.notePush, same]

theorem log_after_congr {one two : LogHistory} (same : one.log = two.log)
    (actions : List LogAction) : (one.after actions).log = (two.after actions).log := by
  induction actions generalizing one two with
  | nil => exact same
  | cons action others ih => exact ih (log_act_congr same action)

theorem LeadsTo.trans {first second third : MidiLog} (left : first.LeadsTo second)
    (right : second.LeadsTo third) : first.LeadsTo third := by
  rcases left with ⟨early, rfl⟩
  rcases right with ⟨late, rfl⟩
  refine ⟨early ++ late, ?_⟩
  have both : LogHistory.after { log := first } (early ++ late) =
      (LogHistory.after { log := first } early).after late := List.foldl_append
  rw [both]
  apply log_after_congr
  rfl

theorem leadsTo_clear (log : MidiLog) : log.LeadsTo log.clear :=
  ⟨[.clear], rfl⟩

theorem leadsTo_rewind (log : MidiLog) : log.LeadsTo log.rewind :=
  ⟨[.rewind], rfl⟩

theorem leadsTo_push (log : MidiLog) (event : MidiEvent) : log.LeadsTo (log.push event).2 :=
  ⟨[.push event], rfl⟩

theorem leadsTo_pushPieces (log : MidiLog) (bus offset : UInt32) (pieces : List ByteArray) :
    log.LeadsTo (log.pushPieces bus offset pieces).2 :=
  ⟨[.pushPieces bus offset pieces], rfl⟩

theorem leadsTo_pushAll (log : MidiLog) (events : List MidiEvent) :
    log.LeadsTo (log.pushAll events) := by
  induction events generalizing log with
  | nil => exact .refl log
  | cons event others ih => exact (leadsTo_push log event).trans (ih _)

theorem leadsTo_of_read? {reader : LogReader} {event : MidiEvent}
    (read : log.read? reader = some (event, next)) : log.LeadsTo next := by
  refine ⟨[.read reader], ?_⟩
  simp only [LogHistory.after, List.foldl_cons, List.foldl_nil, LogHistory.act,
    LogHistory.noteRead, read, Option.map_some, Option.getD_some]

/-- A log without events is as it was before it was used. -/
theorem eq_new_of_leadsTo (led : (MidiLog.new capacity extensible).LeadsTo log)
    (nothing : log.events = []) : log = MidiLog.new capacity extensible := by
  rcases led with ⟨actions, rfl⟩
  let history := (LogHistory.fresh capacity extensible).after actions
  have sound : history.Sound capacity extensible :=
    LogHistory.sound_after (LogHistory.sound_fresh capacity extensible) actions
  have accepted : history.accepted = [] := (LogHistory.events_of_sound sound).symm.trans nothing
  have bytes : history.log.bytes = ByteArray.empty := by
    have listed := sound.bytes
    rw [accepted] at listed
    exact ByteArray.ext (Array.toList_eq_nil_iff.mp listed)
  -- Every cursor stands behind the records of some of the events, of which there are none.
  have cursor (reader : LogReader) (known : reader.HasCursor) :
      history.log.cursorOf reader = 0 := by
    rcases LogHistory.placed_after known (LogHistory.sound_fresh capacity extensible)
      (LogHistory.placed_fresh capacity extensible reader) actions with ⟨passed, ahead, cut⟩
    have split := cut.split
    rw [accepted, eq_comm, List.append_eq_nil_iff] at split
    rw [cut.place, split.1]
    rfl
  have busCursors : history.log.busCursors = Vector.replicate midiBuses 0 := by
    ext bus inside
    have number : (UInt32.ofNat bus).toNat = bus :=
      UInt32.toNat_ofNat_of_lt' (Nat.lt_trans inside (by decide))
    have known : (LogReader.onBus (UInt32.ofNat bus)).HasCursor := by
      rw [LogReader.HasCursor, number]
      exact inside
    have zero := cursor _ known
    simp only [cursorOf, number, dif_pos inside] at zero
    rw [zero, Vector.getElem_replicate]
  have common : history.log.cursor = 0 := cursor .common trivial
  change history.log = _
  rw [MidiLog.new, ← bytes, ← sound.capacity_eq, ← sound.extensible_eq]
  rcases same : history.log with ⟨_, _, _, _, _⟩
  rw [same] at common busCursors
  dsimp only at common busCursors
  rw [common, busCursors]

end MidiLog

/-! ## Host functions -/

/-- Both logs come from those before by use. -/
structure Surroundings.LogsFrom (before after : Surroundings) : Prop where
  input : before.input.LeadsTo after.input
  output : before.output.LeadsTo after.output

namespace Surroundings.LogsFrom

theorem refl (around : Surroundings) : LogsFrom around around :=
  ⟨.refl _, .refl _⟩

theorem of_eq {before after : Surroundings} (input : after.input = before.input)
    (output : after.output = before.output) : LogsFrom before after := by
  constructor
  · rw [input]
    exact .refl _
  · rw [output]
    exact .refl _

theorem trans {first second third : Surroundings} (left : LogsFrom first second)
    (right : LogsFrom second third) : LogsFrom first third :=
  ⟨left.input.trans right.input, left.output.trans right.output⟩

end Surroundings.LogsFrom

namespace HostFunction

open MidiFunctions Surroundings

/-- Events that are not accepted go on, and nothing else is pushed. -/
theorem leadsTo_receiveFrom (accept : Acceptance) (allBuses : Bool) (store : Store)
    (input output : MidiLog) :
    let found := receiveFrom accept allBuses store input output
    input.LeadsTo found.2.2.1 ∧ output.LeadsTo found.2.2.2 := by
  fun_induction receiveFrom accept allBuses store input output with
  | case1 => exact ⟨.refl _, .refl _⟩
  | case2 input output event rest read result taken accepted told =>
      rw [MidiLog.take?_eq_read?] at read
      exact ⟨MidiLog.leadsTo_of_read? read, .refl _⟩
  | case3 input output event rest read _ ih =>
      rw [MidiLog.take?_eq_read?] at read
      exact ⟨(MidiLog.leadsTo_of_read? read).trans ih.1,
        (MidiLog.leadsTo_push output event).trans ih.2⟩

theorem logsFrom_receive (caller : Caller) (accept? : Option Acceptance) (state : State) :
    LogsFrom state.2 (receive caller accept? state).2.2 := by
  cases accept? with
  | none => exact .refl _
  | some accept =>
      rw [receive.eq_def]
      dsimp only
      split
      · have found := leadsTo_receiveFrom accept (isExtended state.1) state.1 state.2.input
          state.2.output
        exact ⟨found.1, found.2⟩
      · exact .refl _

/-- A sender pushes to the output at most. -/
theorem logsFrom_send {sender : Store → MidiLog → List Arg → Float × MidiLog}
    (pushes : ∀ (store : Store) (log : MidiLog) (args : List Arg),
      log.LeadsTo (sender store log args).2)
    (caller : Caller) (args : List Arg) (state : State) :
    LogsFrom state.2 (send caller sender args state).2.2 := by
  rw [send]
  split
  · exact ⟨.refl _, pushes _ _ _⟩
  · exact .refl _

/-- Whatever a host function does to a log is use. -/
theorem logsFrom_run (facts : Facts) (caller : Caller) (function : HostFunction)
    (args : List Arg) (state : State) :
    LogsFrom state.2 (function.run facts caller args state).2.2 := by
  cases function with
  | midiSend => exact logsFrom_send (fun _ log _ => log.leadsTo_push _) caller args state
  | midiSendMemory =>
      refine logsFrom_send (fun store log args => ?_) caller args state
      rw [sendMemory]
      split
      · exact log.leadsTo_push _
      · exact .refl log
  | midiSendText =>
      refine logsFrom_send (fun store log args => ?_) caller args state
      rw [sendText]
      split
      · exact log.leadsTo_push _
      · exact .refl log
  | midiSendExclusive =>
      refine logsFrom_send (fun store log args => ?_) caller args state
      rw [sendExclusive]
      split
      · exact log.leadsTo_pushPieces _ _ _
      · exact .refl log
  | midiReceive | midiReceiveMemory | midiReceiveText =>
      exact logsFrom_receive caller _ state
  | nextKey =>
      rw [run, key]
      dsimp only
      split
      · split
        · exact .of_eq rfl rfl
        · exact .refl _
      · exact .refl _
  | sliderChange | sliderAutomate | sliderShow | fileOpen | fileClose | fileRewind
  | fileAvailable | fileIsText | fileValue | fileBlock | fileString | fileAudioShape =>
      exact .of_eq rfl rfl

end HostFunction
end EffectHost

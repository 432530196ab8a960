import EffectHost.Host.Function
import EffectHost.Proofs.Midi.Cursors
import EffectHost.Proofs.Midi.Forward

/-!
# The event that a call gets

A call that receives reads on until it meets an event that it can take.  So it moves the
cursor of its reader behind that event, or to a place from where nothing can be taken, and
it moves no other cursor.  An event that it cannot take is behind the cursor as well, though
nobody got it.
-/

namespace EffectHost

open MidiEvent

/-- The reader for a script that addresses buses itself, and for one that does not. -/
def LogReader.ofScript (extended : Bool) : LogReader :=
  if extended then .common else .onBus 0

theorem LogReader.hasCursor_ofScript (extended : Bool) : (ofScript extended).HasCursor := by
  cases extended with
  | true => trivial
  | false => exact (by decide : (0 : UInt32).toNat < 16)

namespace MidiLog

variable {log next : MidiLog} {reader other : LogReader} {passed ahead : List MidiEvent}
  {event : MidiEvent}

theorem take?_eq_read? (log : MidiLog) (extended : Bool) :
    log.take? extended = log.read? (.ofScript extended) := by
  cases extended <;> rfl

/-- The events ahead of the cursor of a reader. -/
def aheadOf (log : MidiLog) (reader : LogReader) : List MidiEvent :=
  eventsFrom log.bytes (log.cursorOf reader)

/-- A cursor stands between the events that it has passed and those that are ahead. -/
structure Parted (log : MidiLog) (reader : LogReader) (passed ahead : List MidiEvent) :
    Prop where
  holds : log.Holds (passed ++ ahead)
  place : log.cursorOf reader = (records passed).length

theorem Parted.drop (parted : log.Parted reader passed ahead) :
    log.bytes.data.toList.drop (log.cursorOf reader) = records ahead := by
  rw [parted.holds.bytes, records_append, parted.place, List.drop_left]

theorem Parted.allValid (parted : log.Parted reader passed ahead) : AllValid ahead :=
  (List.forall_mem_append.mp parted.holds.valid).2

theorem Parted.aheadOf_eq (parted : log.Parted reader passed ahead) :
    log.aheadOf reader = ahead :=
  eventsFrom_of_drop parted.allValid parted.drop

theorem parted_of_zero {events : List MidiEvent} (holds : log.Holds events)
    (start : log.cursorOf reader = 0) : log.Parted reader [] events :=
  ⟨holds, start⟩

/-- There are no events. -/
def Drained (log : MidiLog) : Prop :=
  ∀ reader, log.Parted reader [] []

/-- A push goes behind what is ahead of every cursor. -/
theorem Parted.append (parted : log.Parted reader passed ahead)
    (valid : event.isValid = true) :
    (log.append event).Parted reader passed (ahead ++ [event]) := by
  refine ⟨?_, ?_⟩
  · rw [← List.append_assoc]
    exact parted.holds.append valid
  · rw [cursorOf_append]
    exact parted.place

/-- A read moves the cursor of its reader behind the event that it returns, which is the
first one ahead that the reader is after. -/
theorem Parted.read_first (parted : log.Parted reader passed ahead) (known : reader.HasCursor)
    (read : log.read? reader = some (event, next)) :
    ∃ skipped rest, ahead = skipped ++ event :: rest ∧
      (∀ other ∈ skipped, reader.wants other = false) ∧ reader.wants event = true ∧
      next.Parted reader (passed ++ skipped ++ [event]) rest := by
  cases first : ahead.find? reader.wants with
  | none =>
      rw [read?_eq_none parted.allValid parted.drop (LogReader.unwanted_of_find? first)] at read
      cases read
  | some wantedEvent =>
      rcases LogReader.parts_of_find? first with ⟨skipped, rest, rfl, unwanted, wanted⟩
      rcases read?_eq_some known parted.allValid parted.drop unwanted wanted with
        ⟨after, found, place⟩
      rw [read] at found
      cases found
      refine ⟨skipped, rest, rfl, unwanted, wanted, ?_, ?_⟩
      · have same : passed ++ skipped ++ [event] ++ rest =
            passed ++ (skipped ++ event :: rest) := by
          simp only [List.append_assoc, List.cons_append, List.nil_append]
        rw [same]
        exact parted.holds.of_bytes (LogHistory.read?_keeps read).1
      · rw [place, parted.place, List.append_assoc, records_append passed, List.length_append]

/-- A read moves the cursor of its reader behind the event that it returns. -/
theorem Parted.read (parted : log.Parted reader passed ahead) (known : reader.HasCursor)
    (read : log.read? reader = some (event, next)) :
    ∃ skipped rest, ahead = skipped ++ event :: rest ∧
      next.Parted reader (passed ++ skipped ++ [event]) rest := by
  rcases parted.read_first known read with ⟨skipped, rest, parts, _, _, moved⟩
  exact ⟨skipped, rest, parts, moved⟩

/-- A read by another reader is not noticed. -/
theorem Parted.read_of_ne (parted : log.Parted other passed ahead) (different : other ≠ reader)
    (read : log.read? reader = some (event, next)) : next.Parted other passed ahead :=
  ⟨parted.holds.of_bytes (LogHistory.read?_keeps read).1,
    (cursorOf_of_read? read different).trans parted.place⟩

end MidiLog

namespace MidiFunctions

/-- The event that a receiving call gets, and the input afterwards. -/
def received (accept : Acceptance) (allBuses : Bool) (store : Store) (input : MidiLog) :
    Option MidiEvent × MidiLog :=
  match _read : input.take? allBuses with
  | none => (none, input)
  | some (event, rest) =>
    if (accept event store).isSome then (some event, rest)
    else received accept allBuses store rest
termination_by input.bytes.size - input.place allBuses
decreasing_by
  have step := MidiLog.take?_advances _read
  rw [step.1]
  omega

variable {accept : Acceptance} {allBuses : Bool} {store : Store} {input : MidiLog}

/-- A receiving call does with the event that it gets what it does with an event that it can
take, or else it returns zero and leaves the store alone. -/
theorem receiveFrom_eq_received (accept : Acceptance) (allBuses : Bool) (store : Store)
    (input output : MidiLog) :
    let done := receiveFrom accept allBuses store input output
    let got := received accept allBuses store input
    done.2.2.1 = got.2 ∧
      match got.1 with
      | none => done.1 = 0.0 ∧ done.2.1 = store
      | some event => ∃ taken, accept event store = some (done.1, taken) ∧
          done.2.1 =
            if allBuses then taken.write .midiBus (Float.ofNat event.bus.toNat) else taken := by
  fun_induction receiveFrom accept allBuses store input output with
  | case1 input output read =>
      rw [received]
      split
      · exact ⟨rfl, rfl, rfl⟩
      · next found => cases read.symm.trans found
  | case2 input output event rest read result taken accepted told =>
      rw [received]
      split
      · next nothing => cases read.symm.trans nothing
      · next found =>
          cases read.symm.trans found
          rw [accepted]
          exact ⟨rfl, taken, accepted, rfl⟩
  | case3 input output event rest read refused ih =>
      rw [received]
      split
      · next nothing => cases read.symm.trans nothing
      · next found =>
          cases read.symm.trans found
          rw [refused]
          exact ih

/-- The cursor of the reader ends up behind the event that the call gets. -/
theorem parted_received {passed ahead : List MidiEvent}
    (parted : input.Parted (.ofScript allBuses) passed ahead) :
    let got := received accept allBuses store input
    ∃ skipped rest, ahead = skipped ++ (got.1.toList ++ rest) ∧
      got.2.Parted (.ofScript allBuses) (passed ++ skipped ++ got.1.toList) rest := by
  have known := LogReader.hasCursor_ofScript allBuses
  fun_induction received accept allBuses store input generalizing passed ahead with
  | case1 input read =>
      refine ⟨[], ahead, rfl, ?_⟩
      rw [Option.toList_none, List.append_nil, List.append_nil]
      exact parted
  | case2 input event rest read accepted =>
      rw [MidiLog.take?_eq_read?] at read
      exact parted.read known read
  | case3 input event rest read refused ih =>
      rw [MidiLog.take?_eq_read?] at read
      rcases parted.read known read with ⟨skipped, behind, rfl, moved⟩
      rcases ih moved with ⟨more, last, rfl, stopped⟩
      refine ⟨skipped ++ event :: more, last, ?_, ?_⟩
      · simp only [List.append_assoc, List.cons_append]
      · simpa only [List.append_assoc, List.cons_append, List.nil_append] using stopped

/-- The cursors of other readers stay. -/
theorem parted_received_of_ne {other : LogReader} (different : other ≠ .ofScript allBuses)
    {passed ahead : List MidiEvent} (parted : input.Parted other passed ahead) :
    (received accept allBuses store input).2.Parted other passed ahead := by
  fun_induction received accept allBuses store input with
  | case1 => exact parted
  | case2 input event rest read =>
      rw [MidiLog.take?_eq_read?] at read
      exact parted.read_of_ne different read
  | case3 input event rest read refused ih =>
      rw [MidiLog.take?_eq_read?] at read
      exact ih (parted.read_of_ne different read)

end MidiFunctions

namespace HostFunction

open MidiFunctions

/-- How a receiving function takes an event, if its arguments allow it. -/
def acceptance? (args : List Arg) : HostFunction → Option Acceptance
  | .midiReceive => some (acceptShort args)
  | .midiReceiveMemory => memoryAcceptance? args
  | .midiReceiveText => some (acceptText args (argValue args 1))
  | _ => none

/-- The event that a call gets, and the input afterwards. -/
def received (function : HostFunction) (caller : Caller) (args : List Arg) (state : State) :
    Option MidiEvent × MidiLog :=
  match function.acceptance? args with
  | some accept =>
    if caller.mayUseMidi then
      MidiFunctions.received accept (isExtended state.1) state.1 state.2.input
    else (none, state.2.input)
  | none => (none, state.2.input)

theorem input_receive (caller : Caller) (accept? : Option Acceptance) (state : State) :
    (receive caller accept? state).2.2.input =
      (match accept? with
      | some accept =>
        if caller.mayUseMidi then
          MidiFunctions.received accept (isExtended state.1) state.1 state.2.input
        else (none, state.2.input)
      | none => (none, state.2.input)).2 := by
  rw [receive.eq_def]
  cases accept? with
  | none => rfl
  | some accept =>
      dsimp only
      split
      · exact (receiveFrom_eq_received accept _ _ _ _).1
      · rfl

/-- The input moves as far as the event that the call gets. -/
theorem input_run (facts : Facts) (caller : Caller) (function : HostFunction)
    (args : List Arg) (state : State) :
    (function.run facts caller args state).2.2.input =
      (function.received caller args state).2 := by
  cases function with
  | midiReceive | midiReceiveMemory | midiReceiveText => exact input_receive caller _ state
  | midiSend | midiSendMemory | midiSendText | midiSendExclusive =>
      simp only [run, send]
      split <;> rfl
  | nextKey =>
      simp only [run, key]
      split
      · split <;> rfl
      · rfl
  | _ => rfl

/-- A caller without MIDI gets nothing. -/
theorem received_of_not_mayUseMidi {caller : Caller} (without : caller.mayUseMidi = false)
    (function : HostFunction) (args : List Arg) (state : State) :
    function.received caller args state = (none, state.2.input) := by
  rw [received, without]
  cases function.acceptance? args <;> rfl

end HostFunction
end EffectHost

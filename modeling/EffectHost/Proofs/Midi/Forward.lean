import EffectHost.Proofs.Midi.Push

/-!
# Forwarding a log

A log in use holds the records of valid events and nothing else.  A log that can grow
takes every valid event, so that pushing the events of one log into another one appends
them all in order.
-/

namespace EffectHost
namespace MidiLog

open MidiEvent

/-- The log holds the records of valid events and nothing else. -/
structure Holds (log : MidiLog) (events : List MidiEvent) : Prop where
  bytes : log.bytes.data.toList = records events
  valid : AllValid events

variable {log : MidiLog} {events : List MidiEvent}

/-- The events that a log holds are those that it lists. -/
theorem Holds.events_eq (holds : log.Holds events) : log.events = events :=
  eventsFrom_of_drop holds.valid holds.bytes

theorem Holds.of_bytes {other : MidiLog} (holds : log.Holds events)
    (same : other.bytes = log.bytes) : other.Holds events :=
  ⟨same ▸ holds.bytes, holds.valid⟩

theorem holds_clear (log : MidiLog) : log.clear.Holds [] :=
  ⟨rfl, List.forall_mem_nil _⟩

theorem Holds.append (holds : log.Holds events) {event : MidiEvent}
    (valid : event.isValid = true) : (log.append event).Holds (events ++ [event]) := by
  constructor
  · rw [toList_append, holds.bytes, records_append]
    exact congrArg _ (List.append_nil _).symm
  · exact List.forall_mem_append.mpr ⟨holds.valid, List.forall_mem_cons.mpr ⟨valid, nofun⟩⟩

/-- A push leaves a log of valid events. -/
theorem Holds.push (holds : log.Holds events) (event : MidiEvent) :
    ∃ more, (log.push event).2.Holds (events ++ more) := by
  cases accepted : log.accepts event with
  | true =>
      rw [push_of_accepts accepted]
      rw [accepts, Bool.and_eq_true] at accepted
      exact ⟨[event], holds.append accepted.1⟩
  | false =>
      rw [push_of_not_accepts accepted]
      refine ⟨[], ?_⟩
      rw [List.append_nil]
      exact holds

/-- A log that can grow takes all events of a list. -/
theorem Holds.pushAll (holds : log.Holds events) (extensible : log.extensible = true)
    {more : List MidiEvent} (valid : AllValid more) :
    (log.pushAll more).Holds (events ++ more) := by
  induction more generalizing log events with
  | nil =>
      rw [List.append_nil]
      exact holds
  | cons event others ih =>
      have parts := List.forall_mem_cons.mp valid
      have accepted : log.accepts event = true := by
        rw [accepts, parts.1, hasRoom, extensible]
        rfl
      have step : log.pushAll (event :: others) = (log.append event).pushAll others := by
        rw [MidiLog.pushAll, List.foldl_cons, push_of_accepts accepted]
        rfl
      rw [step, List.append_cons]
      exact ih (holds.append parts.1) ((limits_append log event).1.trans extensible) parts.2

/-- Forwarding a log into an empty one that can grow makes it list the same events. -/
theorem events_pushAll_clear {input : MidiLog} (holds : input.Holds events)
    (output : MidiLog) (extensible : output.extensible = true) :
    (output.clear.pushAll input.events).events = input.events := by
  rw [holds.events_eq]
  exact ((holds_clear output).pushAll extensible holds.valid).events_eq

end MidiLog
end EffectHost

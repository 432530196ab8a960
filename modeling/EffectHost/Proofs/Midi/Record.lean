import EffectHost.Midi.Log

/-!
# The bytes of logged events

A log holds the records of its events one after another and nothing else.  The
functions that read a log work on positions.  Here each of them is described by the
bytes behind the position: a record there is read as its event, and the events of a
whole run of records are found in order.  Nothing depends on what stands in front of
the position, so the same facts serve readers anywhere in a log.
-/

namespace EffectHost

open Bytes

namespace MidiEvent

/-- The bytes of an event in a log. -/
def record (event : MidiEvent) : List UInt8 :=
  ofWord event.bus ++ ofWord event.offset ++ ofWord (UInt32.ofNat event.message.size) ++
    event.message.data.toList

/-- The bytes of events one after another. -/
def records (events : List MidiEvent) : List UInt8 :=
  events.flatMap record

/-- The events are valid, each of them. -/
def AllValid (events : List MidiEvent) : Prop :=
  ∀ event ∈ events, event.isValid = true

@[simp] theorem length_record (event : MidiEvent) :
    event.record.length = event.recordSize := by
  have size : event.message.data.size = event.message.size := rfl
  simp only [record, recordSize, headSize, List.length_append, length_ofWord,
    Array.length_toList, size]

theorem records_append (first second : List MidiEvent) :
    records (first ++ second) = records first ++ records second :=
  List.flatMap_append

theorem records_cons (event : MidiEvent) (others : List MidiEvent) :
    records (event :: others) = event.record ++ records others := rfl

theorem length_records (events : List MidiEvent) :
    (records events).length = (events.map recordSize).foldr (· + ·) 0 := by
  induction events with
  | nil => rfl
  | cons event others ih =>
      rw [records_cons, List.length_append, length_record, ih, List.map_cons, List.foldr_cons]

theorem isValid_iff (event : MidiEvent) :
    event.isValid = true ↔ event.bus.toNat < midiBuses ∧ event.message.size ≤ maxMidiMessage := by
  rw [isValid, Bool.and_eq_true, decide_eq_true_eq, decide_eq_true_eq]

/-- The size of a valid message survives as a word. -/
theorem toNat_sizeWord {event : MidiEvent} (valid : event.isValid = true) :
    (UInt32.ofNat event.message.size).toNat = event.message.size := by
  have small : event.message.size ≤ 16777216 := ((isValid_iff event).mp valid).2
  rw [UInt32.toNat_ofNat']
  omega

/-- Events are equal if their words and the bytes of their messages are. -/
theorem eq_of_bytes {first second : MidiEvent} (bus : first.bus = second.bus)
    (offset : first.offset = second.offset)
    (message : first.message.data.toList = second.message.data.toList) : first = second := by
  rcases first with ⟨_, _, ⟨_⟩⟩
  rcases second with ⟨_, _, ⟨_⟩⟩
  have same := Array.toList_inj.mp message
  subst bus offset same
  rfl

end MidiEvent

namespace MidiLog

open MidiEvent

/-- The record of a valid event is read as that event, whatever stands around it. -/
theorem eventAt?_of_drop {bytes : ByteArray} {position : Nat} {event : MidiEvent}
    {rest : List UInt8} (valid : event.isValid = true)
    (here : bytes.data.toList.drop position = event.record ++ rest) :
    eventAt? bytes position = some (event, position + event.recordSize) := by
  have behind (shift : Nat) : bytes.data.toList.drop (position + shift) =
      (event.record ++ rest).drop shift := by
    rw [← here, List.drop_drop]
  have bus : wordAt? bytes position = some event.bus := by
    rw [wordAt?_eq_takeWord?, here, record]
    simp only [List.append_assoc, takeWord?_ofWord_append, Option.map_some]
  have offset : wordAt? bytes (position + 4) = some event.offset := by
    rw [wordAt?_eq_takeWord?, behind, record]
    simp only [List.append_assoc]
    rw [List.drop_left' (length_ofWord _)]
    simp only [takeWord?_ofWord_append, Option.map_some]
  have size : wordAt? bytes (position + 8) =
      some (UInt32.ofNat event.message.size) := by
    rw [wordAt?_eq_takeWord?, behind, record]
    simp only [List.append_assoc]
    rw [← List.append_assoc, List.drop_left' (by rfl)]
    simp only [takeWord?_ofWord_append, Option.map_some]
  have body : bytes.data.toList.drop (position + headSize) =
      event.message.data.toList ++ rest := by
    rw [behind, record]
    simp only [List.append_assoc]
    rw [← List.append_assoc, ← List.append_assoc, List.drop_left' (by rfl)]
  have messageSize : event.message.data.toList.length = event.message.size :=
    Array.length_toList
  have fits : position + headSize + event.message.size ≤ bytes.size := by
    have lengths := congrArg List.length here
    have total : bytes.data.toList.length = bytes.size := Array.length_toList
    rw [List.length_drop, List.length_append, length_record, recordSize, total] at lengths
    have head : 0 < headSize := by decide
    omega
  have read : (⟨event.bus, event.offset, bytes.extract (position + headSize)
      (position + headSize + event.message.size)⟩ : MidiEvent) = event := by
    refine eq_of_bytes rfl rfl ?_
    rw [ByteArray.data_extract, Array.toList_extract, List.extract_eq_take_drop, body,
      Nat.add_sub_cancel_left, ← messageSize, List.take_left]
  simp only [eventAt?, Option.bind_eq_bind, bus, offset, size, Option.bind_some,
    toNat_sizeWord valid]
  rw [if_pos fits, read, recordSize, Nat.add_assoc]

/-- At the end of the bytes there is no event. -/
theorem eventAt?_of_end {bytes : ByteArray} {position : Nat}
    (atEnd : bytes.data.toList.drop position = []) : eventAt? bytes position = none := by
  have noWord : wordAt? bytes position = none := by
    rw [wordAt?_eq_takeWord?, atEnd]
    rfl
  simp only [eventAt?, Option.bind_eq_bind, noWord, Option.bind_none]

/-- Behind a record the bytes go on with the next one. -/
theorem drop_behind {bytes : ByteArray} {position : Nat} {event : MidiEvent}
    {rest : List UInt8} (here : bytes.data.toList.drop position = event.record ++ rest) :
    bytes.data.toList.drop (position + event.recordSize) = rest := by
  rw [← List.drop_drop, here, List.drop_left' (length_record event)]

/-- All events of a run of records are listed. -/
theorem eventsFrom_of_drop {bytes : ByteArray} {position : Nat} {events : List MidiEvent}
    (valid : AllValid events)
    (here : bytes.data.toList.drop position = records events) :
    eventsFrom bytes position = events := by
  induction events generalizing position with
  | nil =>
      rw [eventsFrom]
      split
      · rfl
      · next found =>
          rw [eventAt?_of_end here] at found
          cases found
  | cons event others ih =>
      rw [records_cons] at here
      have parts := List.forall_mem_cons.mp valid
      have first := eventAt?_of_drop parts.1 here
      rw [eventsFrom]
      split
      · next missing =>
          rw [first] at missing
          cases missing
      · next found =>
          rw [first] at found
          cases found
          rw [ih parts.2 (drop_behind here)]

/-- Among records of other buses only, the search for an event of a bus fails. -/
theorem findOnBus?_eq_none {bytes : ByteArray} {position : Nat} {bus : UInt32}
    {events : List MidiEvent} (valid : AllValid events)
    (here : bytes.data.toList.drop position = records events)
    (foreign : ∀ event ∈ events, event.bus ≠ bus) :
    findOnBus? bytes bus position = none := by
  induction events generalizing position with
  | nil =>
      rw [findOnBus?]
      split
      · rfl
      · next found =>
          rw [eventAt?_of_end here] at found
          cases found
  | cons event others ih =>
      rw [records_cons] at here
      have validParts := List.forall_mem_cons.mp valid
      have foreignParts := List.forall_mem_cons.mp foreign
      have first := eventAt?_of_drop validParts.1 here
      rw [findOnBus?]
      split
      · rfl
      · next found =>
          rw [first] at found
          cases found
          rw [if_neg (by simpa using foreignParts.1)]
          exact ih validParts.2 (drop_behind here) foreignParts.2

/-- The search for an event of a bus passes over the records of other buses and stops
behind the first one of its own. -/
theorem findOnBus?_eq_some {bytes : ByteArray} {position : Nat} {event : MidiEvent}
    {skipped rest : List MidiEvent} (valid : AllValid (skipped ++ event :: rest))
    (here : bytes.data.toList.drop position = records (skipped ++ event :: rest))
    (foreign : ∀ other ∈ skipped, other.bus ≠ event.bus) :
    findOnBus? bytes event.bus position =
      some (event, position + (records skipped).length + event.recordSize) := by
  induction skipped generalizing position with
  | nil =>
      rw [List.nil_append, records_cons] at here
      have first := eventAt?_of_drop (List.forall_mem_cons.mp valid).1 here
      rw [findOnBus?]
      split
      · next missing =>
          rw [first] at missing
          cases missing
      · next found =>
          rw [first] at found
          cases found
          rw [if_pos (beq_self_eq_true event.bus)]
          rfl
  | cons other others ih =>
      rw [List.cons_append, records_cons] at here
      have validParts := List.forall_mem_cons.mp valid
      have foreignParts := List.forall_mem_cons.mp foreign
      have first := eventAt?_of_drop validParts.1 here
      rw [findOnBus?]
      split
      · next missing =>
          rw [first] at missing
          cases missing
      · next found =>
          rw [first] at found
          cases found
          rw [if_neg (by simpa using foreignParts.1),
            ih validParts.2 (drop_behind here) foreignParts.2, records_cons,
            List.length_append, length_record]
          simp only [Nat.add_assoc]

end MidiLog
end EffectHost

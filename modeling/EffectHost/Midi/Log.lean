import EffectHost.Bytes.Words
import EffectHost.Number.Power

/-!
# MIDI log

The events of all sixteen buses share one log of bytes that is only appended to.  The
record of an event is its bus, its frame offset and the size of its message, as words,
and then the message.  A log is read through one of two kinds of cursor: the common
one walks over all events, and each bus has one of its own that passes over the events
of other buses.
-/

namespace EffectHost

open Bytes

/-- Number of buses. -/
def midiBuses : Nat := 16

/-- Size of the largest message. -/
def maxMidiMessage : Nat := Number.twoTo 24

/-- One event. -/
structure MidiEvent where
  bus : UInt32
  /-- Frame in the current block. -/
  offset : UInt32
  message : ByteArray

namespace MidiEvent

/-- Size of the record in front of a message. -/
def headSize : Nat := 12

/-- The event can be logged, room permitting. -/
def isValid (event : MidiEvent) : Bool :=
  event.bus.toNat < midiBuses && event.message.size ≤ maxMidiMessage

/-- Size of the whole record. -/
def recordSize (event : MidiEvent) : Nat :=
  headSize + event.message.size

end MidiEvent

/-- A log and its cursors.  A log that cannot be extended never grows past its
capacity. -/
structure MidiLog where
  capacity : Nat
  extensible : Bool
  bytes : ByteArray := ByteArray.empty
  /-- Where the common cursor stands. -/
  cursor : Nat := 0
  /-- Where the cursor of each bus stands. -/
  busCursors : Vector Nat midiBuses := Vector.replicate midiBuses 0

namespace MidiLog

/-- An empty log. -/
def new (capacity : Nat) (extensible : Bool) : MidiLog :=
  { capacity := capacity, extensible := extensible }

/-- Size of the log. -/
def size (log : MidiLog) : Nat :=
  log.bytes.size

/-- Move every cursor to the first event. -/
def rewind (log : MidiLog) : MidiLog :=
  { log with cursor := 0, busCursors := Vector.replicate midiBuses 0 }

/-- Remove all events and move the cursors to the beginning. -/
def clear (log : MidiLog) : MidiLog :=
  { log with bytes := ByteArray.empty }.rewind

/-- There is room for `extra` more bytes. -/
def hasRoom (log : MidiLog) (extra : Nat) : Bool :=
  log.extensible || log.size + extra ≤ log.capacity

/-- Append the head of a record. -/
def appendHead (log : MidiLog) (bus offset : UInt32) (size : Nat) : MidiLog :=
  { log with
    bytes := pushWord (pushWord (pushWord log.bytes bus) offset) (UInt32.ofNat size) }

/-- Append bytes of a message. -/
def appendMessage (log : MidiLog) (message : ByteArray) : MidiLog :=
  { log with bytes := log.bytes ++ message }

/-- Append an event, if it is valid and there is room for it. -/
def push (log : MidiLog) (event : MidiEvent) : Bool × MidiLog :=
  if event.isValid && log.hasRoom event.recordSize then
    (true, (log.appendHead event.bus event.offset event.message.size).appendMessage
      event.message)
  else (false, log)

/-- An event whose message is appended piece by piece. -/
structure Pending where
  /-- Size of the log before the event was begun. -/
  start : Nat
  /-- Bytes of the message so far. -/
  size : Nat := 0
  /-- The event does not fit and will be taken back. -/
  failed : Bool := false

/-- Begin an event. -/
def begin (log : MidiLog) (bus offset : UInt32) : Pending × MidiLog :=
  if bus.toNat < midiBuses && log.hasRoom MidiEvent.headSize then
    ({ start := log.size }, log.appendHead bus offset 0)
  else ({ start := log.size, failed := true }, log)

/-- Append a piece of the message.  After a piece that does not fit, nothing is
appended any more. -/
def extend (log : MidiLog) (pending : Pending) (piece : ByteArray) :
    Bool × Pending × MidiLog :=
  if pending.failed then (false, pending, log)
  else if pending.size + piece.size ≤ maxMidiMessage && log.hasRoom piece.size then
    (true, { pending with size := pending.size + piece.size }, log.appendMessage piece)
  else (false, { pending with failed := true }, log)

/-- Finish an event: note its size in its head, or take it back as a whole. -/
def finish (log : MidiLog) (pending : Pending) : Bool × MidiLog :=
  if pending.failed then
    (false, { log with bytes := log.bytes.extract 0 pending.start })
  else
    (true, { log with
      bytes := setWord log.bytes (pending.start + 8) (UInt32.ofNat pending.size) })

/-- Append pieces of a message one after another. -/
def extendAll (log : MidiLog) (pending : Pending) (pieces : List ByteArray) :
    Pending × MidiLog :=
  pieces.foldl (fun state piece => (state.2.extend state.1 piece).2) (pending, log)

/-- Begin an event and append pieces of its message, which leaves it unfinished. -/
def openPieces (log : MidiLog) (bus offset : UInt32) (pieces : List ByteArray) :
    Pending × MidiLog :=
  let begun := log.begin bus offset
  begun.2.extendAll begun.1 pieces

/-- Append an event whose message comes in pieces. -/
def pushPieces (log : MidiLog) (bus offset : UInt32) (pieces : List ByteArray) :
    Bool × MidiLog :=
  let opened := log.openPieces bus offset pieces
  opened.2.finish opened.1

/-- The event whose record begins at a position, and the position behind it. -/
def eventAt? (bytes : ByteArray) (position : Nat) : Option (MidiEvent × Nat) := do
  let bus ← wordAt? bytes position
  let offset ← wordAt? bytes (position + 4)
  let size ← wordAt? bytes (position + 8)
  let body := position + MidiEvent.headSize
  let behind := body + size.toNat
  if behind ≤ bytes.size then some (⟨bus, offset, bytes.extract body behind⟩, behind)
  else none

theorem position_lt_of_eventAt? {bytes : ByteArray} {position : Nat}
    {found : MidiEvent × Nat} (at_ : eventAt? bytes position = some found) :
    position < found.2 ∧ found.2 ≤ bytes.size := by
  simp only [eventAt?, Option.bind_eq_bind, Option.bind_eq_some_iff] at at_
  obtain ⟨bus, _, offset, _, size, _, rest⟩ := at_
  split at rest
  next fits =>
    cases rest
    exact ⟨by simp only [MidiEvent.headSize]; omega, fits⟩
  next => cases rest

/-- The events from a position to the end. -/
def eventsFrom (bytes : ByteArray) (position : Nat) : List MidiEvent :=
  match _found : eventAt? bytes position with
  | none => []
  | some (event, behind) => event :: eventsFrom bytes behind
termination_by bytes.size - position
decreasing_by
  have step := position_lt_of_eventAt? _found
  simp only at step
  omega

/-- All events, in the order in which they were pushed. -/
def events (log : MidiLog) : List MidiEvent :=
  eventsFrom log.bytes 0

/-- The next event on any bus. -/
def next? (log : MidiLog) : Option (MidiEvent × MidiLog) :=
  (eventAt? log.bytes log.cursor).map fun found =>
    (found.1, { log with cursor := found.2 })

/-- The first event of a bus from a position on, and the position behind it. -/
def findOnBus? (bytes : ByteArray) (bus : UInt32) (position : Nat) :
    Option (MidiEvent × Nat) :=
  match _found : eventAt? bytes position with
  | none => none
  | some (event, behind) =>
    if event.bus == bus then some (event, behind) else findOnBus? bytes bus behind
termination_by bytes.size - position
decreasing_by
  have step := position_lt_of_eventAt? _found
  simp only at step
  omega

/-- The next event of one bus.  A search that finds nothing leaves the cursor where it
is, so that it meets events that are pushed later. -/
def nextOnBus? (log : MidiLog) (bus : UInt32) : Option (MidiEvent × MidiLog) :=
  if h : bus.toNat < midiBuses then
    (findOnBus? log.bytes bus log.busCursors[bus.toNat]).map fun found =>
      (found.1, { log with busCursors := log.busCursors.set bus.toNat found.2 })
  else none

/-- The next event for a reader of all buses, or for one of bus zero alone. -/
def take? (log : MidiLog) (allBuses : Bool) : Option (MidiEvent × MidiLog) :=
  if allBuses then log.next? else log.nextOnBus? 0

/-- Where the cursor of such a reader stands. -/
def place (log : MidiLog) (allBuses : Bool) : Nat :=
  if allBuses then log.cursor else log.busCursors[0]

theorem lt_of_findOnBus? {bytes : ByteArray} {bus : UInt32} {position : Nat}
    {found : MidiEvent × Nat} (hit : findOnBus? bytes bus position = some found) :
    position < found.2 ∧ found.2 ≤ bytes.size := by
  fun_induction findOnBus? bytes bus position with
  | case1 => cases hit
  | case2 position event behind at_ _ =>
    cases hit
    exact position_lt_of_eventAt? at_
  | case3 position event behind at_ _ ih =>
    have step := position_lt_of_eventAt? at_
    have later := ih hit
    exact ⟨by simp only at step; omega, later.2⟩

/-- Reading moves the reader's cursor forward, not past the end, and changes no event. -/
theorem take?_advances {log next : MidiLog} {allBuses : Bool} {event : MidiEvent}
    (read : log.take? allBuses = some (event, next)) :
    next.bytes = log.bytes ∧ log.place allBuses < next.place allBuses ∧
      next.place allBuses ≤ log.bytes.size := by
  cases allBuses with
  | true =>
    simp only [take?, if_true, next?, Option.map_eq_some_iff] at read
    obtain ⟨found, at_, same⟩ := read
    have step := position_lt_of_eventAt? at_
    cases same
    exact ⟨rfl, step⟩
  | false =>
    simp only [take?, Bool.false_eq_true, if_false, nextOnBus?] at read
    split at read
    next known =>
      obtain ⟨found, hit, same⟩ := Option.map_eq_some_iff.1 read
      have step := lt_of_findOnBus? hit
      cases same
      refine ⟨rfl, ?_⟩
      simpa [place] using step
    next => cases read

/-- Push every event of a list, passing over those that are refused. -/
def pushAll (log : MidiLog) (events : List MidiEvent) : MidiLog :=
  events.foldl (fun log event => (log.push event).2) log

end MidiLog
end EffectHost

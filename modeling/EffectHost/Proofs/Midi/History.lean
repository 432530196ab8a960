import EffectHost.Proofs.Midi.Push

/-!
# What a log holds after any use

A history is a log together with what a user of it knows: which pushes succeeded since
the log was last cleared, and which answers the readers got since the cursors last stood
at the beginning.  Actions come in any order.  The invariant says that the bytes are the
records of the accepted events; every action keeps it, since a push only appends a
record, reading moves cursors alone, and clearing forgets both sides at once.
-/

namespace EffectHost

open MidiEvent MidiLog

/-- Who reads a log: the common reader of all events, or the reader of one bus. -/
inductive LogReader where
  | common
  | onBus (bus : UInt32)
deriving DecidableEq

/-- What can be done with a log. -/
inductive LogAction where
  | clear
  | rewind
  | read (reader : LogReader)
  | push (event : MidiEvent)
  | pushPieces (bus offset : UInt32) (pieces : List ByteArray)

/-- The next event for a reader. -/
def MidiLog.read? (log : MidiLog) : LogReader → Option (MidiEvent × MidiLog)
  | .common => log.next?
  | .onBus bus => log.nextOnBus? bus

/-- A log in use. -/
structure LogHistory where
  log : MidiLog
  /-- The events whose push succeeded since the log was last cleared. -/
  accepted : List MidiEvent := []
  /-- The answers to reads since the cursors last stood at the beginning. -/
  answers : List (LogReader × Option MidiEvent) := []

namespace LogHistory

/-- A log that is not in use yet. -/
def fresh (capacity : Nat) (extensible : Bool) : LogHistory where
  log := MidiLog.new capacity extensible

/-- Note the result of pushing an event. -/
def notePush (history : LogHistory) (event : MidiEvent) (pushed : Bool × MidiLog) :
    LogHistory :=
  { history with
    log := pushed.2
    accepted := if pushed.1 then history.accepted ++ [event] else history.accepted }

/-- Note the result of a read.  A reader that finds nothing leaves the log as it is. -/
def noteRead (history : LogHistory) (reader : LogReader)
    (found : Option (MidiEvent × MidiLog)) : LogHistory :=
  { history with
    log := (found.map Prod.snd).getD history.log
    answers := history.answers ++ [(reader, found.map Prod.fst)] }

/-- Carry out an action. -/
def act (history : LogHistory) : LogAction → LogHistory
  | .clear => { log := history.log.clear }
  | .rewind => { history with log := history.log.rewind, answers := [] }
  | .read reader => history.noteRead reader (history.log.read? reader)
  | .push event => history.notePush event (history.log.push event)
  | .pushPieces bus offset pieces =>
    history.notePush ⟨bus, offset, joined pieces⟩ (history.log.pushPieces bus offset pieces)

/-- Carry out actions one after another. -/
def after (history : LogHistory) (actions : List LogAction) : LogHistory :=
  actions.foldl act history

/-- The log holds the accepted events and nothing else, within its limits. -/
structure Sound (capacity : Nat) (extensible : Bool) (history : LogHistory) : Prop where
  bytes : history.log.bytes.data.toList = records history.accepted
  valid : AllValid history.accepted
  within : history.log.WithinCapacity
  capacity_eq : history.log.capacity = capacity
  extensible_eq : history.log.extensible = extensible

/-- A push in pieces is noted like the push of the whole event. -/
theorem act_pushPieces (history : LogHistory) (bus offset : UInt32)
    (pieces : List ByteArray) :
    history.act (.pushPieces bus offset pieces) =
      history.act (.push ⟨bus, offset, joined pieces⟩) := by
  simp only [act, pushPieces_eq_push]

theorem act_push_of_accepts {history : LogHistory} {event : MidiEvent}
    (accepted : history.log.accepts event = true) :
    history.act (.push event) =
      { history with
        log := history.log.append event
        accepted := history.accepted ++ [event] } := by
  rw [act, push_of_accepts accepted]
  rfl

theorem act_push_of_not_accepts {history : LogHistory} {event : MidiEvent}
    (refused : history.log.accepts event = false) : history.act (.push event) = history := by
  rw [act, push_of_not_accepts refused]
  rfl

/-- Reading changes nothing but cursors. -/
theorem read?_keeps {log next : MidiLog} {reader : LogReader} {event : MidiEvent}
    (read : log.read? reader = some (event, next)) :
    next.bytes = log.bytes ∧ next.capacity = log.capacity ∧
      next.extensible = log.extensible := by
  cases reader with
  | common =>
      rcases Option.map_eq_some_iff.mp read with ⟨found, _, same⟩
      cases same
      exact ⟨rfl, rfl, rfl⟩
  | onBus bus =>
      rw [read?, nextOnBus?] at read
      split at read
      · rcases Option.map_eq_some_iff.mp read with ⟨found, _, same⟩
        cases same
        exact ⟨rfl, rfl, rfl⟩
      · cases read

theorem sound_fresh (capacity : Nat) (extensible : Bool) :
    (fresh capacity extensible).Sound capacity extensible where
  bytes := rfl
  valid := List.forall_mem_nil _
  within := Or.inr (Nat.zero_le capacity)
  capacity_eq := rfl
  extensible_eq := rfl

variable {capacity : Nat} {extensible : Bool} {history : LogHistory}

theorem sound_push (sound : history.Sound capacity extensible) (event : MidiEvent) :
    (history.act (.push event)).Sound capacity extensible := by
  cases accepted : history.log.accepts event with
  | true =>
      rw [act_push_of_accepts accepted]
      have eventValid : event.isValid = true := by
        rw [accepts, Bool.and_eq_true] at accepted
        exact accepted.1
      constructor
      · rw [toList_append, sound.bytes, records_append]
        exact congrArg (records history.accepted ++ ·) (List.append_nil event.record).symm
      · exact List.forall_mem_append.mpr
          ⟨sound.valid, List.forall_mem_singleton.mpr eventValid⟩
      · exact withinCapacity_append accepted
      · exact (limits_append history.log event).2.trans sound.capacity_eq
      · exact (limits_append history.log event).1.trans sound.extensible_eq
  | false =>
      rw [act_push_of_not_accepts accepted]
      exact sound

theorem sound_read (sound : history.Sound capacity extensible) (reader : LogReader) :
    (history.act (.read reader)).Sound capacity extensible := by
  rw [act, noteRead]
  cases read : history.log.read? reader with
  | none => exact ⟨sound.bytes, sound.valid, sound.within, sound.capacity_eq,
      sound.extensible_eq⟩
  | some found =>
      rcases read?_keeps read with ⟨bytes, sameCapacity, sameKind⟩
      constructor
      · change found.2.bytes.data.toList = _
        rw [bytes]
        exact sound.bytes
      · exact sound.valid
      · change found.2.extensible = true ∨ found.2.bytes.size ≤ found.2.capacity
        rw [bytes, sameCapacity, sameKind]
        exact sound.within
      · exact sameCapacity.trans sound.capacity_eq
      · exact sameKind.trans sound.extensible_eq

/-- Every action keeps what a log holds in step with what was accepted. -/
theorem sound_act (sound : history.Sound capacity extensible) (action : LogAction) :
    (history.act action).Sound capacity extensible := by
  cases action with
  | clear => exact ⟨rfl, List.forall_mem_nil _, Or.inr (Nat.zero_le _), sound.capacity_eq,
      sound.extensible_eq⟩
  | rewind => exact ⟨sound.bytes, sound.valid, sound.within, sound.capacity_eq,
      sound.extensible_eq⟩
  | read reader => exact sound_read sound reader
  | push event => exact sound_push sound event
  | pushPieces bus offset pieces =>
      rw [act_pushPieces]
      exact sound_push sound _

theorem sound_after (sound : history.Sound capacity extensible) (actions : List LogAction) :
    (history.after actions).Sound capacity extensible := by
  induction actions generalizing history with
  | nil => exact sound
  | cons action others ih => exact ih (sound_act sound action)

/-- The events that a sound log lists are the accepted ones. -/
theorem events_of_sound (sound : history.Sound capacity extensible) :
    history.log.events = history.accepted :=
  eventsFrom_of_drop sound.valid sound.bytes

theorem size_of_sound (sound : history.Sound capacity extensible) :
    history.log.size = (history.accepted.map recordSize).foldr (· + ·) 0 := by
  have lengths := congrArg List.length sound.bytes
  rw [length_records, Array.length_toList] at lengths
  exact lengths

theorem size_le_of_withinCapacity {log : MidiLog} (within : log.WithinCapacity)
    (fixed : log.extensible = false) : log.size ≤ log.capacity := by
  rcases within with extended | fits
  · rw [fixed] at extended
    cases extended
  · exact fits

/-- Pieces appended to a log leave its limits as they are. -/
theorem limits_openPieces (log : MidiLog) (bus offset : UInt32) (pieces : List ByteArray) :
    (log.openPieces bus offset pieces).2.extensible = log.extensible ∧
      (log.openPieces bus offset pieces).2.capacity = log.capacity := by
  rcases extendAll_appends (log.begin bus offset).2 (log.begin bus offset).1 pieces with
    ⟨_, more, appended⟩
  rw [openPieces, appended]
  unfold MidiLog.begin
  split <;> simp only [limits_appendMessage, limits_appendHead, and_self]

/-- After any use a log lists exactly the events accepted since it was last cleared, in
the order of their pushes, and its bytes are their records and nothing else.  A log of
fixed capacity stays within it, also in the middle of an event. -/
theorem log_holds_accepted (capacity : Nat) (extensible : Bool) (actions : List LogAction) :
    let history := (fresh capacity extensible).after actions
    history.log.events = history.accepted ∧
      history.log.bytes.data.toList = records history.accepted ∧
      history.log.size =
        (history.accepted.map fun event => 12 + event.message.size).foldr (· + ·) 0 ∧
      (∀ event ∈ history.accepted, event.bus.toNat < 16 ∧ event.message.size ≤ Number.twoTo 24) ∧
      (extensible = false →
        history.log.size ≤ capacity ∧
          ∀ (bus offset : UInt32) (pieces : List ByteArray),
            (history.log.openPieces bus offset pieces).2.size ≤ capacity) := by
  intro history
  have sound : history.Sound capacity extensible :=
    sound_after (sound_fresh capacity extensible) actions
  refine ⟨events_of_sound sound, sound.bytes, size_of_sound sound, ?_, ?_⟩
  · intro event member
    exact (isValid_iff event).mp (sound.valid event member)
  · intro fixed
    have logFixed := sound.extensible_eq.trans fixed
    constructor
    · rw [← sound.capacity_eq]
      exact size_le_of_withinCapacity sound.within logFixed
    · intro bus offset pieces
      rcases limits_openPieces history.log bus offset pieces with ⟨sameKind, sameCapacity⟩
      rw [← sound.capacity_eq, ← sameCapacity]
      exact size_le_of_withinCapacity
        (withinCapacity_openPieces sound.within bus offset pieces) (sameKind.trans logFixed)

/-- A log of thirty-one bytes takes two events, one of them in pieces, and nothing more. -/
theorem log_holds_accepted_full :
    let history := (fresh 31 false).after
      [.push ⟨0, 5, Bytes.pack [1, 2, 3]⟩, .read .common,
        .pushPieces 3 7 [Bytes.pack [4], Bytes.pack [5, 6]], .push ⟨0, 0, Bytes.pack [7]⟩]
    history.accepted.length = 2 ∧ history.log.events = history.accepted ∧
      (∀ event ∈ history.accepted, event.bus.toNat < 16 ∧ event.message.size ≤ Number.twoTo 24) ∧
      history.log.size ≤ 31 ∧
      (history.log.openPieces 1 0 [Bytes.pack [8]]).2.size ≤ 31 := by
  have law := log_holds_accepted 31 false
    [.push ⟨0, 5, Bytes.pack [1, 2, 3]⟩, .read .common,
      .pushPieces 3 7 [Bytes.pack [4], Bytes.pack [5, 6]], .push ⟨0, 0, Bytes.pack [7]⟩]
  rcases law with ⟨listed, _, _, valid, bounded⟩
  have two : ((fresh 31 false).after
      [.push ⟨0, 5, Bytes.pack [1, 2, 3]⟩, .read .common,
        .pushPieces 3 7 [Bytes.pack [4], Bytes.pack [5, 6]],
        .push ⟨0, 0, Bytes.pack [7]⟩]).accepted.length = 2 := by decide
  rcases bounded rfl with ⟨within, withinOpen⟩
  exact ⟨two, listed, valid, within, withinOpen 1 0 [Bytes.pack [8]]⟩

end LogHistory
end EffectHost

import EffectHost.Proofs.Midi.History

/-!
# Readers of a growing log

Seventeen readers share a log that grows between their reads.  What ties a cursor to the
reads behind it is a cut of the log: the cursor stands at a border between records, and
the wanted events in front of the border are the ones that were returned.  Pushing
extends the part behind the border, reading moves the border past the next wanted event,
and the cuts of the other readers do not notice.
-/

namespace EffectHost

open MidiEvent MidiLog

namespace LogReader

/-- The reader is after an event. -/
def wants : LogReader → MidiEvent → Bool
  | .common, _ => true
  | .onBus bus, event => event.bus == bus

/-- The reader has a cursor. -/
def HasCursor : LogReader → Prop
  | .common => True
  | .onBus bus => bus.toNat < 16

theorem bus_ne_of_unwanted {bus : UInt32} {event : MidiEvent}
    (unwanted : (LogReader.onBus bus).wants event = false) : event.bus ≠ bus := by
  intro same
  rw [wants, same, beq_self_eq_true] at unwanted
  cases unwanted

theorem unwanted_of_find? {reader : LogReader} {events : List MidiEvent}
    (absent : events.find? reader.wants = none) :
    ∀ event ∈ events, reader.wants event = false := by
  intro event member
  exact Bool.eq_false_iff.mpr (List.find?_eq_none.mp absent event member)

/-- The events in front of the first one that is wanted are foreign to the reader. -/
theorem parts_of_find? {reader : LogReader} {events : List MidiEvent} {event : MidiEvent}
    (first : events.find? reader.wants = some event) :
    ∃ skipped rest, events = skipped ++ event :: rest ∧
      (∀ other ∈ skipped, reader.wants other = false) ∧ reader.wants event = true := by
  rcases List.find?_eq_some_iff_append.mp first with ⟨wanted, skipped, rest, parted, foreign⟩
  refine ⟨skipped, rest, parted, ?_, wanted⟩
  intro other member
  simpa using foreign other member

end LogReader

/-- The events of a log that a reader is after. -/
def MidiLog.eventsOf (log : MidiLog) : LogReader → List MidiEvent
  | .common => log.events
  | .onBus bus => log.events.filter fun event => event.bus == bus

/-- Where the cursor of a reader stands. -/
def MidiLog.cursorOf (log : MidiLog) : LogReader → Nat
  | .common => log.cursor
  | .onBus bus => if h : bus.toNat < midiBuses then log.busCursors[bus.toNat] else 0

theorem MidiLog.eventsOf_eq_filter (log : MidiLog) (reader : LogReader) :
    log.eventsOf reader = log.events.filter reader.wants := by
  cases reader with
  | common => exact (List.filter_eq_self.mpr fun _ _ => rfl).symm
  | onBus bus => rfl

/-- The two readers differ, and so do their cursors. -/
theorem toNat_ne_of_onBus_ne {first second : UInt32}
    (different : LogReader.onBus first ≠ LogReader.onBus second) :
    first.toNat ≠ second.toNat := by
  intro same
  apply different
  rw [UInt32.toNat.inj same]

@[simp] theorem MidiLog.cursorOf_append (log : MidiLog) (event : MidiEvent)
    (reader : LogReader) : (log.append event).cursorOf reader = log.cursorOf reader := by
  cases reader <;> simp only [cursorOf, append, appendMessage, appendHead]

namespace MidiLog

variable {log next : MidiLog} {reader other : LogReader} {event : MidiEvent}

/-- A reader finds nothing if nothing ahead of its cursor is wanted. -/
theorem read?_eq_none {ahead : List MidiEvent} (valid : AllValid ahead)
    (here : log.bytes.data.toList.drop (log.cursorOf reader) = records ahead)
    (unwanted : ∀ event ∈ ahead, reader.wants event = false) : log.read? reader = none := by
  cases reader with
  | common =>
      cases ahead with
      | nil =>
          have atEnd : eventAt? log.bytes log.cursor = none := eventAt?_of_end here
          rw [read?, next?, atEnd]
          rfl
      | cons event others => cases unwanted event List.mem_cons_self
  | onBus bus =>
      rw [read?, nextOnBus?]
      split
      · next known =>
          have place : log.cursorOf (.onBus bus) = log.busCursors[bus.toNat] := dif_pos known
          rw [place] at here
          have missing : findOnBus? log.bytes bus log.busCursors[bus.toNat] = none := by
            apply findOnBus?_eq_none valid here
            intro event member
            exact LogReader.bus_ne_of_unwanted (unwanted event member)
          rw [missing]
          rfl
      · rfl

/-- A reader returns the first wanted event ahead of its cursor and moves behind it. -/
theorem read?_eq_some {skipped rest : List MidiEvent} (known : reader.HasCursor)
    (valid : AllValid (skipped ++ event :: rest))
    (here : log.bytes.data.toList.drop (log.cursorOf reader) =
      records (skipped ++ event :: rest))
    (unwanted : ∀ other ∈ skipped, reader.wants other = false)
    (wanted : reader.wants event = true) :
    ∃ next, log.read? reader = some (event, next) ∧
      next.cursorOf reader = log.cursorOf reader + (records (skipped ++ [event])).length := by
  have behind : (records (skipped ++ [event])).length =
      (records skipped).length + event.recordSize := by
    rw [records_append, List.length_append, records_cons, List.length_append, length_record]
    rfl
  rw [behind]
  cases reader with
  | common =>
      have noneSkipped : skipped = [] := by
        cases skipped with
        | nil => rfl
        | cons other others => cases unwanted other List.mem_cons_self
      subst noneSkipped
      have found : eventAt? log.bytes log.cursor = some (event, log.cursor + event.recordSize) :=
        eventAt?_of_drop (List.forall_mem_cons.mp valid).1 here
      refine ⟨{ log with cursor := log.cursor + event.recordSize }, ?_, ?_⟩
      · rw [read?, next?, found]
        rfl
      · exact congrArg (log.cursor + ·) (Nat.zero_add _).symm
  | onBus bus =>
      have same : event.bus = bus := by simpa [LogReader.wants] using wanted
      subst same
      have inRange : event.bus.toNat < midiBuses := known
      have cursor : log.cursorOf (.onBus event.bus) = log.busCursors[event.bus.toNat] :=
        dif_pos inRange
      have foreign : ∀ other ∈ skipped, other.bus ≠ event.bus := by
        intro other member
        exact LogReader.bus_ne_of_unwanted (unwanted other member)
      rw [cursor] at here
      have found := findOnBus?_eq_some valid here foreign
      refine ⟨{ log with
        busCursors := log.busCursors.set event.bus.toNat
          (log.busCursors[event.bus.toNat] + (records skipped).length +
            event.recordSize) }, ?_, ?_⟩
      · rw [read?, nextOnBus?, dif_pos inRange, found]
        rfl
      · rw [cursor, ← Nat.add_assoc]
        exact (dif_pos inRange).trans (Vector.getElem_set_self _)

/-- Reading does not move the cursors of other readers. -/
theorem cursorOf_of_read? (read : log.read? reader = some (event, next))
    (different : other ≠ reader) : next.cursorOf other = log.cursorOf other := by
  cases reader with
  | common =>
      rcases Option.map_eq_some_iff.mp read with ⟨found, _, same⟩
      cases same
      cases other with
      | common => exact absurd rfl different
      | onBus bus => rfl
  | onBus bus =>
      rw [read?, nextOnBus?] at read
      split at read
      · next known =>
          rcases Option.map_eq_some_iff.mp read with ⟨found, _, same⟩
          cases same
          cases other with
          | common => rfl
          | onBus otherBus =>
              simp only [cursorOf]
              split
              · next otherKnown =>
                  exact Vector.getElem_set_ne _ otherKnown (toNat_ne_of_onBus_ne different).symm
              · rfl
      · cases read

end MidiLog

namespace LogHistory

/-- The events that a reader got since the cursors last stood at the beginning. -/
def taken (history : LogHistory) (reader : LogReader) : List MidiEvent :=
  history.answers.filterMap fun answer => if answer.1 = reader then answer.2 else none

/-- The cut of the log at the cursor of a reader. -/
structure Cut (history : LogHistory) (reader : LogReader)
    (passed ahead : List MidiEvent) : Prop where
  split : history.accepted = passed ++ ahead
  place : history.log.cursorOf reader = (records passed).length
  returned : passed.filter reader.wants = history.taken reader

/-- A cursor stands at a border between records. -/
def Placed (history : LogHistory) (reader : LogReader) : Prop :=
  ∃ passed ahead, history.Cut reader passed ahead

variable {capacity : Nat} {extensible : Bool} {history : LogHistory}

/-- From the cursor on, the bytes are the records of the events ahead. -/
theorem Cut.drop {reader : LogReader} {passed ahead : List MidiEvent}
    (cut : history.Cut reader passed ahead) (sound : history.Sound capacity extensible) :
    history.log.bytes.data.toList.drop (history.log.cursorOf reader) = records ahead := by
  rw [sound.bytes, cut.split, records_append, cut.place, List.drop_left]

/-- The events ahead of a cursor are valid. -/
theorem Cut.allValid {reader : LogReader} {passed ahead : List MidiEvent}
    (cut : history.Cut reader passed ahead) (sound : history.Sound capacity extensible) :
    AllValid ahead := by
  have valid := sound.valid
  rw [cut.split] at valid
  exact (List.forall_mem_append.mp valid).2

/-- A reader finds nothing if nothing ahead is wanted. -/
theorem read?_of_unwanted {reader : LogReader} {passed ahead : List MidiEvent}
    (cut : history.Cut reader passed ahead) (sound : history.Sound capacity extensible)
    (unwanted : ∀ event ∈ ahead, reader.wants event = false) :
    history.log.read? reader = none :=
  read?_eq_none (cut.allValid sound) (cut.drop sound) unwanted

/-- A reader returns the first wanted event ahead and moves behind it. -/
theorem read?_of_wanted {reader : LogReader} {passed skipped rest : List MidiEvent}
    {event : MidiEvent} (known : reader.HasCursor)
    (cut : history.Cut reader passed (skipped ++ event :: rest))
    (sound : history.Sound capacity extensible)
    (unwanted : ∀ other ∈ skipped, reader.wants other = false)
    (wanted : reader.wants event = true) :
    ∃ next, history.log.read? reader = some (event, next) ∧
      next.cursorOf reader = (records (passed ++ skipped ++ [event])).length := by
  rcases read?_eq_some known (cut.allValid sound) (cut.drop sound) unwanted wanted with
    ⟨next, read, place⟩
  refine ⟨next, read, ?_⟩
  rw [place, cut.place, List.append_assoc, records_append passed, List.length_append]

/-! ## Cuts of a history -/

theorem taken_noteRead (history : LogHistory) (reader other : LogReader)
    (found : Option (MidiEvent × MidiLog)) :
    (history.noteRead other found).taken reader =
      history.taken reader ++ if other = reader then (found.map Prod.fst).toList else [] := by
  rw [taken, taken, noteRead, List.filterMap_append]
  by_cases same : other = reader
  · rw [if_pos same]
    cases found <;> simp [same]
  · rw [if_neg same]
    simp [same]

/-- Pushing gives nothing to a reader. -/
theorem taken_push (history : LogHistory) (reader : LogReader) (event : MidiEvent) :
    (history.act (.push event)).taken reader = history.taken reader := by
  rw [taken, taken, act, notePush]

/-- A rewound log has every cursor in front of the first record. -/
theorem cursorOf_rewind (log : MidiLog) (reader : LogReader) :
    log.rewind.cursorOf reader = 0 := by
  cases reader with
  | common => rfl
  | onBus bus =>
      simp only [cursorOf, rewind]
      split
      · exact Vector.getElem_replicate _
      · rfl

theorem placed_fresh (capacity : Nat) (extensible : Bool) (reader : LogReader) :
    (fresh capacity extensible).Placed reader :=
  ⟨[], [], rfl, cursorOf_rewind (MidiLog.new capacity extensible) reader, rfl⟩

/-- A push goes behind what is ahead of every cursor. -/
theorem placed_push {reader : LogReader} (placed : history.Placed reader)
    (event : MidiEvent) : (history.act (.push event)).Placed reader := by
  rcases placed with ⟨passed, ahead, cut⟩
  cases accepted : history.log.accepts event with
  | true =>
      refine ⟨passed, ahead ++ [event], ?_, ?_, ?_⟩
      · rw [act_push_of_accepts accepted, cut.split, List.append_assoc]
      · rw [act_push_of_accepts accepted, cursorOf_append, cut.place]
      · rw [taken_push, cut.returned]
  | false =>
      rw [act_push_of_not_accepts accepted]
      exact ⟨passed, ahead, cut⟩

/-- A read by another reader is not noticed. -/
theorem placed_read_of_ne {reader other : LogReader} (placed : history.Placed reader)
    (different : reader ≠ other) : (history.act (.read other)).Placed reader := by
  rcases placed with ⟨passed, ahead, cut⟩
  refine ⟨passed, ahead, cut.split, ?_, ?_⟩
  · rw [← cut.place, act, noteRead]
    cases read : history.log.read? other with
    | none => rfl
    | some found => exact cursorOf_of_read? read different
  · rw [act, taken_noteRead, if_neg different.symm, List.append_nil]
    exact cut.returned

/-- A read moves the cut of its reader behind the next wanted event, if there is one. -/
theorem placed_read_self {reader : LogReader} (known : reader.HasCursor)
    (sound : history.Sound capacity extensible) (placed : history.Placed reader) :
    (history.act (.read reader)).Placed reader := by
  rcases placed with ⟨passed, ahead, cut⟩
  cases next : ahead.find? reader.wants with
  | none =>
      have nothing := read?_of_unwanted cut sound (LogReader.unwanted_of_find? next)
      refine ⟨passed, ahead, cut.split, ?_, ?_⟩
      · rw [act, nothing]
        exact cut.place
      · rw [act, nothing, taken_noteRead, if_pos rfl]
        exact cut.returned.trans (List.append_nil _).symm
  | some event =>
      rcases LogReader.parts_of_find? next with ⟨skipped, rest, parted, unwanted, wanted⟩
      subst parted
      rcases read?_of_wanted known cut sound unwanted wanted with ⟨after, read, place⟩
      -- The cut moves behind the event; what was skipped is foreign and counts for nothing.
      refine ⟨passed ++ skipped ++ [event], rest, ?_, ?_, ?_⟩
      · change history.accepted = _
        rw [cut.split]
        simp only [List.append_assoc, List.cons_append, List.nil_append]
      · rw [act, read]
        exact place
      · have passedOver : skipped.filter reader.wants = [] := by
          apply List.filter_eq_nil_iff.mpr
          intro other member
          rw [unwanted other member]
          exact Bool.false_ne_true
        rw [act, read, taken_noteRead, if_pos rfl, List.filter_append, List.filter_append,
          cut.returned, passedOver, List.append_nil]
        simp [wanted]

/-- Every action leaves every cursor at the border behind what its reader got. -/
theorem placed_act {reader : LogReader} (known : reader.HasCursor)
    (sound : history.Sound capacity extensible) (placed : history.Placed reader)
    (action : LogAction) : (history.act action).Placed reader := by
  cases action with
  | clear => exact ⟨[], [], rfl, cursorOf_rewind _ reader, rfl⟩
  | rewind => exact ⟨[], history.accepted, rfl, cursorOf_rewind _ reader, rfl⟩
  | read other =>
      by_cases same : reader = other
      · subst same
        exact placed_read_self known sound placed
      · exact placed_read_of_ne placed same
  | push event => exact placed_push placed event
  | pushPieces bus offset pieces =>
      rw [act_pushPieces]
      exact placed_push placed _

theorem placed_after {reader : LogReader} (known : reader.HasCursor)
    (sound : history.Sound capacity extensible) (placed : history.Placed reader)
    (actions : List LogAction) : (history.after actions).Placed reader := by
  induction actions generalizing history with
  | nil => exact placed
  | cons action others ih =>
      exact ih (sound_act sound action) (placed_act known sound placed action)

/-! ## What a reader gets -/

/-- What a reader got is a beginning of the events that it is after. -/
theorem Cut.eventsOf {reader : LogReader} {passed ahead : List MidiEvent}
    (cut : history.Cut reader passed ahead) (sound : history.Sound capacity extensible) :
    history.log.eventsOf reader = history.taken reader ++ ahead.filter reader.wants := by
  rw [eventsOf_eq_filter, events_of_sound sound, cut.split, List.filter_append, cut.returned]

/-- The next answer to a reader is the event that it is after next. -/
theorem Cut.read? {reader : LogReader} {passed ahead : List MidiEvent}
    (known : reader.HasCursor) (cut : history.Cut reader passed ahead)
    (sound : history.Sound capacity extensible) :
    (history.log.read? reader).map Prod.fst = ahead.find? reader.wants := by
  cases next : ahead.find? reader.wants with
  | none =>
      rw [read?_of_unwanted cut sound (LogReader.unwanted_of_find? next)]
      rfl
  | some event =>
      rcases LogReader.parts_of_find? next with ⟨skipped, rest, parted, unwanted, wanted⟩
      subst parted
      rcases read?_of_wanted known cut sound unwanted wanted with ⟨after, read, _⟩
      rw [read]
      rfl

/-- The answer to the next read is the first event that the reader is after and did not
get so far. -/
theorem read?_eq_getElem? {reader : LogReader} (known : reader.HasCursor)
    (sound : history.Sound capacity extensible) (placed : history.Placed reader) :
    (history.log.read? reader).map Prod.fst =
      (history.log.eventsOf reader)[(history.taken reader).length]? := by
  rcases placed with ⟨passed, ahead, cut⟩
  rw [cut.read? known sound, cut.eventsOf sound, List.getElem?_append_right (Nat.le_refl _),
    Nat.sub_self, ← List.head?_eq_getElem?, List.head?_filter]

/-- A reader finds nothing exactly when it got everything that it is after. -/
theorem read?_eq_none_iff {reader : LogReader} (known : reader.HasCursor)
    (sound : history.Sound capacity extensible) (placed : history.Placed reader) :
    history.log.read? reader = none ↔
      history.taken reader = history.log.eventsOf reader := by
  have next := read?_eq_getElem? known sound placed
  rcases placed with ⟨passed, ahead, cut⟩
  have wanted := cut.eventsOf sound
  constructor
  · intro nothing
    rw [nothing, wanted, List.getElem?_append_right (Nat.le_refl _), Nat.sub_self,
      Option.map_none, ← List.head?_eq_getElem?] at next
    rw [wanted, List.head?_eq_none_iff.mp next.symm, List.append_nil]
  · intro all
    rw [← all, List.getElem?_eq_none (Nat.le_refl _)] at next
    exact Option.map_eq_none_iff.mp next

/-- A reader that got everything finds an event that is pushed then. -/
theorem read?_push {reader : LogReader} {event : MidiEvent} (known : reader.HasCursor)
    (sound : history.Sound capacity extensible) (placed : history.Placed reader)
    (nothing : history.log.read? reader = none) (wanted : reader.wants event = true)
    (pushed : (history.log.push event).1 = true) :
    ((history.log.push event).2.read? reader).map Prod.fst = some event := by
  have all := (read?_eq_none_iff known sound placed).mp nothing
  have next := read?_eq_getElem? known (sound_push sound event) (placed_push placed event)
  rw [push_fst] at pushed
  have listed : (history.act (.push event)).log.eventsOf reader =
      history.log.eventsOf reader ++ [event] := by
    rw [eventsOf_eq_filter, eventsOf_eq_filter, events_of_sound (sound_push sound event),
      events_of_sound sound, act_push_of_accepts pushed, List.filter_append]
    simp [wanted]
  rw [listed, taken_push, all, List.getElem?_concat_length] at next
  exact next

/-- In any run of pushes and reads since a log was cleared or rewound, every reader gets
the events that it is after in the order of the log, one with each successful read, no
matter what the other readers do.  It finds nothing exactly when it has got them all, and
an event that is pushed then is what it finds next.  A bus without a cursor never gets
anything and moves nothing. -/
theorem readers_follow_log (capacity : Nat) (extensible : Bool) (actions : List LogAction) :
    let history := (fresh capacity extensible).after actions
    (∀ reader : LogReader, reader.HasCursor →
      (∀ k < (history.taken reader).length,
        (history.taken reader)[k]? = (history.log.eventsOf reader)[k]?) ∧
      (history.log.read? reader).map Prod.fst =
        (history.log.eventsOf reader)[(history.taken reader).length]? ∧
      (history.log.read? reader = none ↔
        history.taken reader = history.log.eventsOf reader) ∧
      ∀ event : MidiEvent, history.log.read? reader = none → reader.wants event = true →
        (history.log.push event).1 = true →
        ((history.log.push event).2.read? reader).map Prod.fst = some event) ∧
    ∀ bus : UInt32, 16 ≤ bus.toNat →
      history.log.read? (.onBus bus) = none ∧
        (history.act (.read (.onBus bus))).log = history.log := by
  intro history
  have sound : history.Sound capacity extensible :=
    sound_after (sound_fresh capacity extensible) actions
  constructor
  · intro reader known
    have placed : history.Placed reader :=
      placed_after known (sound_fresh capacity extensible)
        (placed_fresh capacity extensible reader) actions
    refine ⟨?_, read?_eq_getElem? known sound placed, read?_eq_none_iff known sound placed, ?_⟩
    · intro k inside
      rcases placed with ⟨passed, ahead, cut⟩
      rw [cut.eventsOf sound, List.getElem?_append_left inside]
    · intro event nothing wanted pushed
      exact read?_push known sound placed nothing wanted pushed
  · intro bus outside
    have nothing : history.log.read? (.onBus bus) = none :=
      dif_neg (Nat.not_lt_of_le outside)
    refine ⟨nothing, ?_⟩
    rw [act, nothing]
    rfl

/-- The reader of the second bus passes over an event of the first one, finds nothing when
it asks too early, and goes on with an event that is pushed after it got everything. -/
theorem readers_follow_log_foreign :
    let history := (fresh 64 false).after
      [.push ⟨1, 0, Bytes.pack [1]⟩, .read (.onBus 2), .push ⟨2, 1, Bytes.pack [2]⟩,
        .read .common, .read (.onBus 2)]
    LogReader.HasCursor (.onBus 2) ∧
      (history.taken (.onBus 2))[0]? = (history.log.eventsOf (.onBus 2))[0]? ∧
      history.log.read? (.onBus 2) = none ∧
      ((history.log.push ⟨2, 9, Bytes.pack [3, 4]⟩).2.read? (.onBus 2)).map Prod.fst =
        some ⟨2, 9, Bytes.pack [3, 4]⟩ ∧
      history.log.read? (.onBus 16) = none := by
  intro history
  have law := readers_follow_log 64 false
    [.push ⟨1, 0, Bytes.pack [1]⟩, .read (.onBus 2), .push ⟨2, 1, Bytes.pack [2]⟩,
      .read .common, .read (.onBus 2)]
  have known : LogReader.HasCursor (.onBus 2) := show (2 : UInt32).toNat < 16 by decide
  have one : (history.taken (.onBus 2)).length = 1 := by decide +kernel
  have nothing : (history.log.read? (.onBus 2)).isNone = true := by decide +kernel
  have pushed : (history.log.push ⟨2, 9, Bytes.pack [3, 4]⟩).1 = true := by decide +kernel
  rcases law.1 (.onBus 2) known with ⟨inOrder, _, _, resumed⟩
  refine ⟨known, inOrder 0 (by rw [one]; decide), Option.isNone_iff_eq_none.mp nothing, ?_, ?_⟩
  · exact resumed _ (Option.isNone_iff_eq_none.mp nothing) (by decide) pushed
  · exact (law.2 16 (by decide)).1

end LogHistory
end EffectHost

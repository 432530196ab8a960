import EffectHost.Proofs.Host.MessageMemory
import EffectHost.Proofs.Number.Whole

/-!
# Receiving until nothing is left

A script that wants all events of its input receives until a call returns zero.  There is
nothing left then, unless the call has delivered an event without bytes: into memory or into a
string it returns the size of the event, which is zero, too.  A short message returns its first
byte, but never zero.
-/

namespace EffectHost

open MidiFunctions Number

namespace HostFunction

variable {function : HostFunction} {args : List Arg} {reader : LogReader} {event : MidiEvent}
  {before after : State} {result : Float}

/-- A call that delivers the event returns zero nevertheless. -/
def HidesDelivery (function : HostFunction) (event : MidiEvent) : Prop :=
  function ≠ .midiReceive ∧ event.message.size = 0

theorem messageByte_lt (event : MidiEvent) (position : Nat) :
    messageByte event position < 256 := by
  rw [messageByte]
  cases event.message.data[position]? with
  | none => decide
  | some byte => exact byte.toNat_lt

theorem size_eq_zero_iff (valid : event.isValid = true) :
    Float.ofNat event.message.size = 0.0 ↔ event.message.size = 0 := by
  have bounded : event.message.size ≤ 16777216 := ((MidiEvent.isValid_iff event).mp valid).2
  exact ofNat_eq_zero_iff (by omega)

/-- What a call returns for an event that it delivers. -/
theorem eq_zero_iff_of_taken? (valid : event.isValid = true) {store taken : Store}
    (took : function.taken? args event store = some (result, taken)) :
    result = 0.0 ↔ function.HidesDelivery event := by
  rw [HidesDelivery]
  cases function with
  | midiReceive =>
      have accepted : acceptShort args event store = some (result, taken) := took
      rw [acceptShort] at accepted
      split at accepted
      · cases accepted
      · cases accepted
        have small := messageByte_lt event 0
        rw [ofNat_eq_zero_iff (by omega)]
        constructor
        · intro zero
          omega
        · exact fun other => absurd rfl other.1
  | midiReceiveMemory =>
      rcases Option.bind_eq_some_iff.mp took with ⟨accept, allowed, accepted⟩
      have same : memoryAcceptance? args = some accept := allowed
      rw [memoryAcceptance?] at same
      split at same
      · cases same
      · cases same
        rw [(stored_acceptMemory accepted).1, size_eq_zero_iff valid]
        simp
  | midiReceiveText =>
      have accepted : acceptText args (argValue args 1) event store = some (result, taken) := took
      rw [acceptText] at accepted
      split at accepted
      · cases accepted
        rw [size_eq_zero_iff valid]
        simp
      · cases accepted
  | _ => cases took

/-- What is delivered was unread. -/
theorem Reads.mem_unread (reads : function.Reads args reader before result after)
    (delivered : (function.reception args reader before).delivered? = some event) :
    event ∈ before.2.input.unread reader := by
  rw [reads.parts, Reception.consumed, delivered]
  simp

/-- A call returns zero if it delivers no event, and if it hides the delivery. -/
theorem Reads.eq_zero_iff (reads : function.Reads args reader before result after)
    (border : before.2.input.AtBorder reader) :
    result = 0.0 ↔ ∀ event, (function.reception args reader before).delivered? = some event →
      function.HidesDelivery event := by
  cases delivered : (function.reception args reader before).delivered? with
  | none =>
      have zero := (reads.nothing delivered).2.1
      exact ⟨fun _ => nofun, fun _ => zero⟩
  | some event =>
      rcases reads.delivers event delivered with ⟨_, taken, took, _⟩
      have valid := (border.of_mem_unread (reads.mem_unread delivered)).1
      rw [eq_zero_iff_of_taken? valid took]
      constructor
      · rintro hides _ ⟨⟩
        exact hides
      · exact fun all => all event rfl

/-- A call that delivers nothing leaves nothing unread. -/
theorem Reads.unread_of_none (reads : function.Reads args reader before result after)
    (nothing : (function.reception args reader before).delivered? = none) :
    after.2.input.unread reader = [] := by
  have parts := reads.parts
  rw [Reception.consumed, (reads.nothing nothing).1, nothing, Option.toList_none,
    List.append_nil] at parts
  exact List.self_eq_append_right.mp parts

/-- A call that delivers an event leaves fewer. -/
theorem Reads.length_lt (reads : function.Reads args reader before result after)
    (delivered : (function.reception args reader before).delivered? = some event) :
    (after.2.input.unread reader).length < (before.2.input.unread reader).length := by
  rw [reads.parts, Reception.consumed, delivered]
  simp
  omega

end HostFunction

namespace ReceivingCall

open HostFunction

/-- What a result of zero tells a script that receives until it gets one.  The last call has
delivered no event, and then nothing is left, or it hides the delivery of an event without
bytes.  Every other call leaves fewer events than before.  So if there is no event that the
last call would hide, all events have been delivered or forwarded when it returns zero. -/
theorem zero_ends_input_unless_hidden (facts : Facts) (caller : Caller) (extended : Bool)
    (calls : List ReceivingCall) (last : ReceivingCall) (state : State)
    (mayUse : caller.mayUseMidi = true) {capacity : Nat} {extensible : Bool}
    (input : (MidiLog.new capacity extensible).LeadsTo state.2.input)
    (may : ∀ call ∈ calls ++ [last], call.function.MayReceive call.args)
    (kept : KeepsReader facts caller extended (calls ++ [last]) state) :
    let reader := LogReader.ofScript extended
    let before := performAll facts caller calls state
    let done := last.perform facts caller before
    let reception := last.function.reception last.args reader (last.start before)
    let receptions := receptions facts caller reader (calls ++ [last]) state
    (done.1 = 0.0 ↔ ∀ event, reception.delivered? = some event →
        last.function.HidesDelivery event) ∧
      (reception.delivered? = none → done.2.2.input.unread reader = []) ∧
      (done.1 ≠ 0.0 → (done.2.2.input.unread reader).length <
        (before.2.input.unread reader).length) ∧
      (done.1 = 0.0 →
        (∀ event ∈ state.2.input.unread reader, ¬ last.function.HidesDelivery event) →
        done.2.2.input.unread reader = [] ∧
          state.2.input.unread reader = receptions.flatMap Reception.consumed ∧
          done.2.2.output =
            state.2.output.pushAll (receptions.flatMap Reception.forwarded)) := by
  intro reader before done reception all
  rcases List.forall_mem_append.mp may with ⟨mayCalls, mayLast⟩
  rcases keepsReader_append.mp kept with ⟨keptCalls, same, _⟩
  have border : state.2.input.AtBorder reader :=
    MidiLog.atBorder_of_leadsTo (LogReader.hasCursor_ofScript extended) input
  rcases reads_performAll border mayUse mayCalls keptCalls with ⟨reached, parts, _⟩
  rcases reads_performAll border mayUse may kept with ⟨_, whole, output⟩
  have ends : performAll facts caller (calls ++ [last]) state = done.2 := by
    rw [performAll, List.foldl_append]
    rfl
  rw [ends] at whole output
  have begun : (last.start before).2.input.AtBorder
      (.ofScript (isExtended (last.start before).1)) := by
    rw [same]
    exact reached
  have called := (reads_run facts begun mayUse (mayLast last List.mem_cons_self)).2
  rw [same] at called
  have zero_iff := called.eq_zero_iff reached
  have ended : reception.delivered? = none → done.2.2.input.unread reader = [] :=
    called.unread_of_none
  refine ⟨zero_iff, ended, ?_, ?_⟩
  · intro positive
    cases delivered : reception.delivered? with
    | none => exact absurd (called.nothing delivered).2.1 positive
    | some event => exact called.length_lt delivered
  · intro zero shown
    have nothing : reception.delivered? = none := by
      apply Option.eq_none_iff_forall_not_mem.mpr
      intro event delivered
      refine shown event ?_ (zero_iff.mp zero event delivered)
      rw [parts]
      exact List.mem_append_right _ (called.mem_unread delivered)
    have left := ended nothing
    rw [show done.2.2.input.unread (LogReader.ofScript extended) = [] from left,
      List.append_nil] at whole
    exact ⟨left, whole, output⟩

/-- A script takes a note into memory, and then there is no short message left. -/
theorem zero_ends_input_unless_hidden_note :
    let long : MidiEvent := ⟨0, 1, Bytes.pack [240, 1, 2, 3, 247]⟩
    let note : MidiEvent := ⟨0, 2, Bytes.pack [144, 60, 100]⟩
    let log : MidiLog := (MidiLog.new 0 true).pushAll [long, note]
    let state : State :=
      (Machine.hosted.store, { input := log, output := MidiLog.new 0 true })
    let caller : Caller := { role := .audio, hasMidi := true }
    let memory : ReceivingCall :=
      { function := .midiReceiveMemory, args := [⟨0.0, none⟩, ⟨16.0, none⟩, ⟨4.0, none⟩] }
    let short : ReceivingCall := { function := .midiReceive, args := [] }
    let done := short.perform {} caller (performAll {} caller [memory] state)
    done.1 = 0.0 ∧ done.2.2.input.unread (.onBus 0) = [] ∧
      log.unread (.onBus 0) = (receptions {} caller (.onBus 0) [memory, short] state).flatMap
        Reception.consumed := by
  intro long note log state caller memory short done
  have used : (MidiLog.new 0 true).LeadsTo log := MidiLog.leadsTo_pushAll _ _
  have may : ∀ call ∈ [memory] ++ [short], call.function.MayReceive call.args := by
    refine List.forall_mem_cons.mpr ⟨?_, List.forall_mem_singleton.mpr trivial⟩
    exact ⟨by decide +kernel, by decide +kernel⟩
  have kept : KeepsReader {} caller false ([memory] ++ [short]) state :=
    ⟨by decide +kernel, by decide +kernel, trivial⟩
  have law := zero_ends_input_unless_hidden {} caller false [memory] short state rfl used may kept
  have zero : done.1 = 0.0 := by decide +kernel
  have ended := law.2.2.2 zero fun _ _ hides => hides.1 rfl
  exact ⟨zero, ended.1, ended.2.1⟩

end ReceivingCall

namespace HostFunction

/-- In front of a note stands an event without bytes.  Received into memory or into a string it
is delivered with the result zero, and the note stays unread. -/
theorem zero_with_note_unread :
    let empty : MidiEvent := ⟨0, 0, Bytes.pack []⟩
    let note : MidiEvent := ⟨0, 1, Bytes.pack [144, 60, 100]⟩
    let log : MidiLog := (MidiLog.new 64 false).pushAll [empty, note]
    let state : State :=
      (Machine.hosted.store, { input := log, output := MidiLog.new 0 true })
    let caller : Caller := { role := .audio, hasMidi := true }
    let memory := midiReceiveMemory.run {} caller [⟨0.0, none⟩, ⟨0.0, none⟩, ⟨8.0, none⟩] state
    let text := midiReceiveText.run {} caller [⟨0.0, none⟩, ⟨0.0, none⟩] state
    (log.unread (.onBus 0)).length = 2 ∧
      memory.1 = 0.0 ∧ (memory.2.2.input.unread (.onBus 0)).length = 1 ∧
      text.1 = 0.0 ∧ (text.2.2.input.unread (.onBus 0)).length = 1 := by
  intro empty note log state caller memory text
  exact ⟨by decide +kernel, by decide +kernel, by decide +kernel, by decide +kernel,
    by decide +kernel⟩

end HostFunction
end EffectHost

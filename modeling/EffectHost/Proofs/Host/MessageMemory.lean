import EffectHost.Proofs.Host.Reception
import EffectHost.Proofs.Host.Rounding

/-!
# Messages in memory

A script that receives into memory names an address and the size of the largest message that
it wants.  Larger messages go on to the output.  A message that is small enough is delivered
and stored as far as the memory goes, and the result is its size in any case: the number of
bytes that were stored is not asked for.  So a message is cut off exactly if it would reach
past the end of the memory.
-/

namespace EffectHost

open MidiFunctions Number

namespace Memory

/-- Every value of a range below the limit is stored, and nothing else is. -/
theorem Filled.writeRange_covered (memory : Memory) (address : Nat) (values : Array Float) :
    Filled (fun place => values.getD (place - address) 0.0) address
      (memory.covered address values.size) memory (memory.writeRange address values).2 := by
  let value (place : Nat) : Float := values.getD (place - address) 0.0
  let count := memory.covered address values.size
  have room : count ≤ memory.limit - address := Nat.min_le_right _ _
  have within : count ≤ values.size := Nat.min_le_left _ _
  have stored : values.toList.take count = (List.range' address count).map value := by
    apply List.ext_getElem
    · simp [within]
    · intro position small _
      have inside : position < values.size := by
        rw [List.length_take] at small
        exact Nat.lt_of_lt_of_le small (Nat.min_le_right _ _)
      simp [value, inside]
  -- What is written is the beginning of the values, which has room as a whole.
  let front := ((List.range' address count).map value).toArray
  have size : front.size = count := by simp [front]
  have covered : memory.covered address front.size = count := by
    rw [size]
    exact Nat.min_eq_left room
  have same : memory.writeRange address values = memory.writeRange address front := by
    rw [Memory.writeRange, Memory.writeRange, covered, stored, List.toList_toArray,
      List.take_of_length_le (by simp)]
  rw [same]
  exact (Filled.writeRange value room).2

/-- A message stands in memory: each of its bytes has a slot, and the slot holds it. -/
def HoldsMessage (memory : Memory) (address : Nat) (event : MidiEvent) : Prop :=
  ∀ position < event.message.size, address + position < memory.limit ∧
    memory.read (address + position) = Float.ofNat (messageByte event position)

end Memory

@[simp] theorem memory_assignArg (args : List Arg) (position : Nat) (store : Store)
    (value : Float) : (assignArg args position store value).memory = store.memory := by
  rw [assignArg]
  split
  · rw [Arg.assign]
    split <;> rfl
  · rfl

namespace MidiFunctions

/-- What becomes of the memory when a message is taken. -/
structure StoredMessage (address : Nat) (event : MidiEvent) (before after : Memory) : Prop where
  limit : after.limit = before.limit
  /-- Below the limit the bytes of the message are stored. -/
  bytes : ∀ position < event.message.size, address + position < before.limit →
    after.read (address + position) = Float.ofNat (messageByte event position)
  /-- The other slots keep their values. -/
  others : ∀ place, (place < address ∨ address + event.message.size ≤ place) →
    after.read place = before.read place

/-- The message is stored as a whole exactly if it ends below the limit. -/
theorem StoredMessage.holds_iff {address : Nat} {event : MidiEvent} {before after : Memory}
    (stored : StoredMessage address event before after) :
    after.HoldsMessage address event ↔
      event.message.size = 0 ∨ address + event.message.size ≤ before.limit := by
  constructor
  · intro holds
    rcases Nat.eq_zero_or_pos event.message.size with empty | positive
    · exact .inl empty
    · have last := (holds (event.message.size - 1) (by omega)).1
      rw [stored.limit] at last
      exact .inr (by omega)
  · intro fits position inside
    have below : address + position < before.limit := by omega
    exact ⟨stored.limit ▸ below, stored.bytes position inside below⟩

theorem getD_values (event : MidiEvent) (position : Nat) (inside : position < event.message.size) :
    (event.message.data.map fun byte => Float.ofNat byte.toNat).getD position 0.0 =
      Float.ofNat (messageByte event position) := by
  have known : position < event.message.data.size := inside
  simp [messageByte, Array.getElem?_eq_getElem known]

/-- A message that is taken into memory is stored as far as the memory goes. -/
theorem stored_acceptMemory {args : List Arg} {address most : Nat} {event : MidiEvent}
    {store taken : Store} {result : Float}
    (accepted : acceptMemory args address most event store = some (result, taken)) :
    result = Float.ofNat event.message.size ∧
      StoredMessage address event store.memory taken.memory := by
  rw [acceptMemory] at accepted
  split at accepted
  · cases accepted
  · cases accepted
    refine ⟨rfl, ?_⟩
    rw [memory_assignArg, Store.writeRange]
    dsimp only
    have filled := Memory.Filled.writeRange_covered store.memory address
      (event.message.data.map fun byte => Float.ofNat byte.toNat)
    have size : (event.message.data.map fun byte => Float.ofNat byte.toNat).size =
        event.message.size := Array.size_map
    rw [size, Memory.covered] at filled
    refine ⟨filled.limit, ?_, ?_⟩
    · intro position inside below
      rw [filled.inside (address + position) (by omega) (by omega), Nat.add_sub_cancel_left]
      exact getD_values event position inside
    · intro place apart
      exact filled.outside place (by omega)

end MidiFunctions

namespace HostFunction

/-- A call that receives into memory forwards the messages that are larger than the script
wants, up to one that is not, and returns the size of that one.  Its bytes are stored below
the limit of the memory, and no other slot changes, so that the message stands in memory
exactly if it ends below the limit. -/
theorem messages_end_at_limit (facts : Facts) (caller : Caller) (args : List Arg)
    (state : State) (mayUse : caller.mayUseMidi = true)
    {inputCapacity outputCapacity : Nat} {inputExtensible : Bool}
    (input : (MidiLog.new inputCapacity inputExtensible).LeadsTo state.2.input)
    (output : (MidiLog.new outputCapacity true).LeadsTo state.2.output)
    (addressed : ¬ argValue args 1 < 0.0) (sized : ¬ argValue args 2 < 0.0) :
    let reader := LogReader.ofScript (isExtended state.1)
    let address := toNatural (argValue args 1)
    let memory := state.1.memory
    let done := midiReceiveMemory.run facts caller args state
    let unread := state.2.input.unread reader
    let fits (event : MidiEvent) : Bool := event.message.size ≤ toNatural (argValue args 2)
    let forwarded := unread.takeWhile fun event => !fits event
    done.2.2.output.events = state.2.output.events ++ forwarded ∧
      match unread.find? fits with
      | none => forwarded = unread ∧ done.1 = 0.0 ∧ done.2.1 = state.1
      | some event =>
        unread = forwarded ++ event :: done.2.2.input.unread reader ∧
          done.1 = Float.ofNat event.message.size ∧
          StoredMessage address event memory done.2.1.memory ∧
          (done.2.1.memory.HoldsMessage address event ↔
            event.message.size = 0 ∨ address + event.message.size ≤ memory.limit) := by
  intro reader address memory done unread fits forwarded
  have may : midiReceiveMemory.MayReceive args := ⟨addressed, sized⟩
  have ready := Surroundings.ready_of_leadsTo (isExtended state.1) input output
  have conserved := (conserves_run facts ready mayUse may).2
  refine ⟨conserved.output, ?_⟩
  cases found : unread.find? fits with
  | none => exact conserved.nothing found
  | some event =>
      rcases conserved.delivers event found with ⟨_, taken, took, told⟩
      have parts : unread = (forwarded ++ (unread.find? fits).toList) ++
          done.2.2.input.unread reader := conserved.parts
      rw [found, List.append_assoc] at parts
      rw [taken?, acceptance?_midiReceiveMemory may, Option.bind_some] at took
      rcases stored_acceptMemory took with ⟨result, stored⟩
      have kept : done.2.1.memory = taken.memory := by
        rw [show done.2.1 = _ from told]
        split <;> rfl
      rw [← kept] at stored
      exact ⟨parts, result, stored, stored.holds_iff⟩

/-- With a memory of eight slots, three bytes at address five end at its limit and are stored
as a whole.  The larger message in front of them goes on. -/
theorem messages_end_at_limit_last :
    let large : MidiEvent := ⟨0, 1, Bytes.pack [240, 1, 2, 247]⟩
    let small : MidiEvent := ⟨0, 2, Bytes.pack [1, 2, 3]⟩
    let log : MidiLog := (MidiLog.new 0 true).pushAll [large, small]
    let store : Store := { Machine.hosted.store with memory := { limit := 8 } }
    let state : State := (store, { input := log, output := MidiLog.new 0 true })
    let args : List Arg := [⟨0.0, none⟩, ⟨5.0, none⟩, ⟨3.0, none⟩]
    let done := midiReceiveMemory.run {} { role := .audio, hasMidi := true } args state
    done.2.2.output.events = [large] ∧ done.1 = Float.ofNat 3 ∧
      done.2.1.memory.HoldsMessage 5 small := by
  intro large small log store state args done
  have law := messages_end_at_limit {} { role := .audio, hasMidi := true } args state rfl
    (MidiLog.leadsTo_pushAll _ _) (.refl _) (by decide +kernel) (by decide +kernel)
  have empty : (MidiLog.new 0 true).Holds [] := ⟨rfl, List.forall_mem_nil _⟩
  have holds : log.Holds [large, small] := by
    apply empty.pushAll rfl
    rintro event (_ | ⟨_, _ | ⟨_, ⟨⟩⟩⟩) <;> decide +kernel
  have parted : log.Parted (.onBus 0) [] [large, small] :=
    MidiLog.parted_of_zero holds (by decide +kernel)
  have unread : state.2.input.unread (.ofScript (isExtended state.1)) = [large, small] := by
    have single : isExtended state.1 = false := by decide +kernel
    rw [single]
    exact parted.unread_eq
  have address : toNatural (argValue args 1) = 5 := by decide +kernel
  have most : toNatural (argValue args 2) = 3 := by decide +kernel
  dsimp only at law
  rw [unread, address, most, empty.events_eq] at law
  rcases law with ⟨output, _, result, _, holds_iff⟩
  exact ⟨output, result, holds_iff.mpr (.inr (by decide))⟩

/-- A message of three bytes for the last slot of the memory is delivered as a whole, as the
result says, but only its first byte has a slot.  It does not go to the output either. -/
theorem message_is_cut_at_limit :
    let message : MidiEvent := ⟨0, 2, Bytes.pack [1, 2, 3]⟩
    let log : MidiLog := (MidiLog.new 0 true).pushAll [message]
    let store : Store := { Machine.hosted.store with memory := { limit := 8 } }
    let state : State := (store, { input := log, output := MidiLog.new 0 true })
    let args : List Arg := [⟨0.0, none⟩, ⟨7.0, none⟩, ⟨3.0, none⟩]
    let done := midiReceiveMemory.run {} { role := .audio, hasMidi := true } args state
    (log.unread (.onBus 0)).length = 1 ∧ done.1 = 3.0 ∧
      done.2.2.input.unread (.onBus 0) = [] ∧ done.2.2.output.events = [] ∧
      done.2.1.memory.read 8 ≠ Float.ofNat (messageByte message 1) ∧
      ¬ done.2.1.memory.HoldsMessage 7 message := by
  intro message log store state args done
  have past : done.2.1.memory.read 8 ≠ Float.ofNat (messageByte message 1) := by decide +kernel
  refine ⟨by decide +kernel, by decide +kernel, ?_, ?_, past, ?_⟩
  · exact List.eq_nil_of_length_eq_zero (by decide +kernel)
  · exact List.eq_nil_of_length_eq_zero (by decide +kernel)
  · intro holds
    exact past (holds 1 (by decide)).2

end HostFunction
end EffectHost

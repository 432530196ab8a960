import EffectHost.Proofs.Host.Sending
import EffectHost.Proofs.Midi.Forward
import EffectHost.Proofs.Midi.Pieces

/-!
# System exclusive messages

A system exclusive message stands between two frame bytes.  A script may leave them out, so
that the message is appended in up to three pieces.  The log takes all of them or none: a
piece that finds no room takes the pieces before it with it.
-/

namespace EffectHost

open MidiEvent Number

namespace MidiFunctions

/-- Content between the frame bytes, of which it may bring along either. -/
def framed (content : List UInt8) : List UInt8 :=
  (if content.head? = some exclusiveStart then [] else [exclusiveStart]) ++ content ++
    (if content.getLast? = some exclusiveEnd then [] else [exclusiveEnd])

theorem head?_framed (content : List UInt8) :
    (framed content).head? = some exclusiveStart := by
  by_cases begins : content.head? = some exclusiveStart
  · rw [framed, if_pos begins, List.nil_append, List.head?_append, begins, Option.some_or]
  · rw [framed, if_neg begins, List.append_assoc, List.singleton_append, List.head?_cons]

theorem getLast?_framed (content : List UInt8) :
    (framed content).getLast? = some exclusiveEnd := by
  by_cases ends : content.getLast? = some exclusiveEnd
  · rw [framed, if_pos ends, List.append_nil, List.getLast?_append, ends, Option.some_or]
  · rw [framed, if_neg ends, List.getLast?_concat]

/-- The pieces make up the content between the frame bytes. -/
theorem joined_exclusivePieces (content : List UInt8) :
    MidiLog.joined (exclusivePieces (Bytes.pack content)) = Bytes.pack (framed content) := by
  have start : (Bytes.pack content).data[0]? = content.head? := by
    rw [Bytes.pack, List.getElem?_toArray, List.head?_eq_getElem?]
  have back : (Bytes.pack content).data.back? = content.getLast? := by
    rw [Bytes.pack, List.back?_toArray]
  rw [exclusivePieces, start, back, framed]
  simp only [beq_iff_eq]
  apply Bytes.eq_pack
  split <;> split <;> simp [MidiLog.joined, Bytes.pack]

end MidiFunctions

namespace HostFunction

open MidiFunctions

/-- A system exclusive message is sent as a whole or not at all.  If its content between the
frame bytes is no larger than a message may be and finds room in the log, one record more is
in the log and the result is the size of the content; or else the result is zero and nothing
changes. -/
theorem exclusive_is_sent_whole_or_not_at_all (facts : Facts) (caller : Caller)
    (args : List Arg) (state : State) (mayUse : caller.mayUseMidi = true)
    (addressed : ¬ argValue args 1 < 0.0) (sized : ¬ argValue args 2 < 0.0) :
    let content := state.1.memory.content (toNatural (argValue args 1))
      (min (toNatural (argValue args 2)) maxMidiMessage)
    let event : MidiEvent :=
      ⟨sendBus state.1, frame (argValue args 0), Bytes.pack (framed content)⟩
    let log := state.2.output
    let fits := (framed content).length ≤ twoTo 24 ∧
      (log.extensible = true ∨ log.size + 12 + (framed content).length ≤ log.capacity)
    let done := midiSendExclusive.run facts caller args state
    (framed content).head? = some 0xF0 ∧ (framed content).getLast? = some 0xF7 ∧
      (fits →
        done = (Float.ofNat content.length, state.1,
          { state.2 with output := log.append event }) ∧
        (log.append event).bytes.data.toList = log.bytes.data.toList ++ event.record ∧
        ∀ events, log.Holds events → (log.append event).Holds (events ++ [event])) ∧
      (¬ fits → done = (0.0, state)) := by
  intro content event log fits done
  have sent : done = (if log.accepts event then Float.ofNat content.length else 0.0, state.1,
      { state.2 with output := (log.push event).2 }) := by
    have made : outgoing? state.1 args .midiSendExclusive =
        some (event.message, Float.ofNat content.length) := by
      rw [outgoing?, bytesInMemory?_eq addressed sized, Option.map_some, joined_exclusivePieces]
      rfl
    exact run_of_outgoing? facts mayUse made
  have accepted : log.accepts event = true ↔ fits := by
    rw [MidiLog.accepts_iff]
    exact and_iff_right (sendBus_lt state.1)
  refine ⟨head?_framed content, getLast?_framed content, ?_, ?_⟩
  · intro fitting
    have taken := accepted.mpr fitting
    have valid : event.isValid = true := (Bool.and_eq_true_iff.mp taken).1
    refine ⟨?_, MidiLog.toList_append log event, fun events holds => holds.append valid⟩
    rw [sent, taken, MidiLog.push_of_accepts taken]
    rfl
  · intro large
    have refused : log.accepts event = false :=
      Bool.eq_false_iff.mpr fun taken => large (accepted.mp taken)
    rw [sent, refused, MidiLog.push_of_not_accepts refused]
    rfl

/-- Two bytes make a record of sixteen.  A log of that capacity takes it on the bus that the
script asks for, and a log that is smaller by one is left as it was. -/
theorem exclusive_is_sent_whole_or_not_at_all_pair :
    let memory : Memory := (({ limit := 8 } : Memory).write 3 1.0).write 4 2.0
    let store : Store := { ((Machine.hosted.store.write .extendedMidiBus 1.0).write .midiBus 5.0)
      with memory := memory }
    let args : List Arg := [⟨7.0, none⟩, ⟨3.0, none⟩, ⟨2.0, none⟩]
    let caller : Caller := { role := .audio, hasMidi := true }
    let around (capacity : Nat) : Surroundings :=
      { input := MidiLog.new 0 true, output := MidiLog.new capacity false }
    let event : MidiEvent := ⟨5, 7, Bytes.pack [240, 1, 2, 247]⟩
    (midiSendExclusive.run {} caller args (store, around 16)).2.2.output.Holds [event] ∧
      midiSendExclusive.run {} caller args (store, around 15) = (0.0, store, around 15) := by
  intro memory store args caller around event
  have law (capacity : Nat) := exclusive_is_sent_whole_or_not_at_all {} caller args
    (store, around capacity) rfl (by decide +kernel) (by decide +kernel)
  have content : memory.content (toNatural (argValue args 1))
      (min (toNatural (argValue args 2)) maxMidiMessage) = [1, 2] := by
    have address : toNatural (argValue args 1) = 3 := by decide +kernel
    have count : min (toNatural (argValue args 2)) maxMidiMessage = 2 := by decide +kernel
    have first : memory.read 3 = 1.0 :=
      (Memory.read_write_of_ne _ (by decide) _).trans (Memory.read_write_self (by decide) _)
    have second : memory.read 4 = 2.0 := Memory.read_write_self (by decide) _
    rw [address, count, Memory.content]
    simp only [List.range'_succ, List.range'_zero, List.map_cons, List.map_nil, first, second]
    decide +kernel
  have bus : sendBus store = 5 := by decide +kernel
  have offset : frame (argValue args 0) = 7 := by decide +kernel
  have empty (capacity : Nat) : (around capacity).output.Holds [] :=
    ⟨rfl, List.forall_mem_nil _⟩
  constructor
  · rcases (law 16).2.2.1 (by rw [content]; decide) with ⟨done, _, holds⟩
    rw [done]
    have held := holds [] (empty 16)
    dsimp only at held ⊢
    rw [content, bus, offset] at held ⊢
    exact held
  · exact (law 15).2.2.2 (by rw [content]; decide)

end HostFunction
end EffectHost

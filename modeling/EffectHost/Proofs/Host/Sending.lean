import EffectHost.Host.Function
import EffectHost.Proofs.Host.Rounding
import EffectHost.Proofs.Midi.Push
import EffectHost.Proofs.Number.Whole
import EffectHost.Proofs.Text.Utf8

/-!
# What a script sends

Every function that sends makes an event of the bus that the script asks for, the frame of its
first argument, and the bytes of a message, which it takes from its arguments, from memory or
from a string.  A value gives the low eight bits of its whole part, so that values that were
bytes before are the same bytes again.
-/

namespace EffectHost

open Number

namespace Bytes

/-- Bytes that are pushed one after another stand behind those before. -/
theorem toList_foldl_push {α : Type} (byte : α → UInt8) (values : List α) (bytes : ByteArray) :
    (values.foldl (fun bytes value => bytes.push (byte value)) bytes).data.toList =
      bytes.data.toList ++ values.map byte := by
  induction values generalizing bytes with
  | nil => simp
  | cons value others ih => simp [ih, ByteArray.data_push]

theorem eq_pack {bytes : ByteArray} {list : List UInt8} (same : bytes.data.toList = list) :
    bytes = pack list := by
  apply ByteArray.ext
  rw [← same]
  rfl

end Bytes

namespace Number

/-- A whole number in a range around zero stays in it, whatever value it is made from. -/
theorem toWholeBy_mem {whole : Nat → Int → Nat} {low high : Int} (below : low ≤ 0)
    (above : 0 ≤ high) (value : Float) :
    low ≤ toWholeBy whole low high value ∧ toWholeBy whole low high value ≤ high := by
  rw [toWholeBy]
  split
  · exact ⟨below, above⟩
  · next negative _ =>
      cases negative
      · exact ⟨Int.le_trans below above, Int.le_refl _⟩
      · exact ⟨Int.le_refl _, Int.le_trans below above⟩
  · simp only [clamp]
    omega

end Number

namespace Memory

/-- The bytes that the values in a range of memory stand for; zero past the limit. -/
def content (memory : Memory) (address count : Nat) : List UInt8 :=
  (List.range' address count).map fun place => MidiFunctions.byteOf (memory.read place)

@[simp] theorem length_content (memory : Memory) (address count : Nat) :
    (memory.content address count).length = count := by
  simp [content]

/-- Past the limit there is nothing but zeros. -/
theorem content_eq_append (memory : Memory) (address count : Nat) :
    memory.content address count =
      memory.content address (memory.covered address count) ++
        List.replicate (count - memory.covered address count) 0 := by
  have inside : memory.covered address count ≤ count := Nat.min_le_left _ _
  have zero : MidiFunctions.byteOf 0.0 = 0 := by decide +kernel
  rw [content, content, ← Nat.add_sub_cancel' inside, ← List.range'_append_1, List.map_append,
    Nat.add_sub_cancel' inside]
  congr 1
  apply List.eq_replicate_iff.mpr
  constructor
  · simp
  · intro byte member
    rcases List.mem_map.mp member with ⟨place, there, rfl⟩
    have past : ¬ place < memory.limit := by
      rw [List.mem_range'_1, covered] at there
      omega
    rw [read, if_neg past, zero]

end Memory

namespace MidiFunctions

/-- No script gets at a bus that does not exist. -/
theorem sendBus_lt (store : Store) : (sendBus store).toNat < midiBuses := by
  rw [sendBus]
  split
  · let bus := round 0 (midiBuses - 1) (store.read .midiBus)
    have inside : 0 ≤ bus ∧ bus ≤ 15 := toWholeBy_mem (by decide) (by decide) _
    have small : bus.toNat < midiBuses := by rw [midiBuses]; omega
    rwa [UInt32.toNat_ofNat', Nat.mod_eq_of_lt (Nat.lt_trans small (by decide))]
  · decide

/-- Of a number its low eight bits are sent. -/
theorem byteOf_ofNat {number : Nat} (short : number < 2 ^ 53) :
    byteOf (Float.ofNat number) = UInt8.ofNat number := by
  have low : ((number : Int) % 256).toNat = number % 256 := by omega
  rw [byteOf, toSigned_ofNat short, low]
  apply UInt8.toNat_inj.mp
  rw [UInt8.toNat_ofNat', UInt8.toNat_ofNat', Nat.mod_mod]

/-- A byte comes back from its value. -/
theorem byteOf_toNat (byte : UInt8) : byteOf (Float.ofNat byte.toNat) = byte := by
  have small := byte.toNat_lt
  rw [byteOf_ofNat (by omega), UInt8.ofNat_toNat]

/-- The value of two bytes, the low one first. -/
theorem pair_eq_ofNat (low high : UInt8) :
    Float.ofNat low.toNat + Float.ofNat high.toNat * 256.0 =
      Float.ofNat (low.toNat + high.toNat * 256) := by
  have small := low.toNat_lt
  have small' := high.toNat_lt
  have factor : (256.0 : Float) = Float.ofNat 256 := by decide +kernel
  have shifted : Float.ofNat high.toNat * 256.0 = Float.ofNat (high.toNat * 256) := by
    by_cases none : high.toNat = 0
    · rw [none]
      decide +kernel
    · rw [factor, ofNat_mul none (by decide) (by omega)]
  rw [shifted, ofNat_add (by omega)]

/-- The bytes of a short message come back from values, the last two of them from one value if
there are three arguments. -/
theorem shortMessage_eq {args : List Arg} {first second third : UInt8}
    (begins : argValue args 1 = Float.ofNat first.toNat)
    (others : if 4 ≤ args.length then
        argValue args 2 = Float.ofNat second.toNat ∧ argValue args 3 = Float.ofNat third.toNat
      else argValue args 2 = Float.ofNat second.toNat + Float.ofNat third.toNat * 256.0) :
    shortMessage args = (first, second, third) := by
  rw [shortMessage, begins, byteOf_toNat]
  dsimp only
  split at others
  · next long => rw [if_pos long, others.1, others.2, byteOf_toNat, byteOf_toNat]
  · next packed =>
      have small := second.toNat_lt
      have small' := third.toNat_lt
      have low : UInt8.ofNat (second.toNat + third.toNat * 256) = second := by
        apply UInt8.toNat_inj.mp
        rw [UInt8.toNat_ofNat']
        omega
      have high : ((second.toNat + third.toNat * 256 : Nat) : Int) / 256 = third.toNat := by omega
      rw [if_neg packed, others, pair_eq_ofNat, toSigned_ofNat (by omega), high]
      change (first, byteOf (Float.ofNat _), byteOf (Float.ofNat _)) = _
      rw [byteOf_ofNat (by omega), low, byteOf_toNat]

/-- A frame comes back from its value. -/
theorem frame_ofNat (offset : UInt32) : frame (Float.ofNat offset.toNat) = offset := by
  rw [frame, toNatural32_ofNat offset.toNat_lt, UInt32.ofNat_toNat]

/-- What is sent from memory is the content of the range, of which there is no more than the
largest message has. -/
theorem bytesInMemory?_eq {address count : Float} (addressed : ¬ address < 0.0)
    (sized : ¬ count < 0.0) (memory : Memory) :
    bytesInMemory? memory address count =
      some (Bytes.pack
        (memory.content (toNatural address) (min (toNatural count) maxMidiMessage))) := by
  have inRange : ¬ (address < 0.0 || count < 0.0) = true := by simp [addressed, sized]
  rw [bytesInMemory?, if_neg inRange]
  dsimp only
  congr 1
  apply Bytes.eq_pack
  rw [ByteArray.data_append, Array.toList_append, ← Array.foldl_toList, Bytes.toList_foldl_push,
    Memory.toList_readRange, List.map_map, Memory.content_eq_append]
  have size : (memory.readRange (toNatural address) (min (toNatural count) maxMidiMessage)).size =
      memory.covered (toNatural address) (min (toNatural count) maxMidiMessage) :=
    Array.size_ofFn
  rw [size]
  simp [Memory.content, Function.comp_def]

/-- A string of bytes has these bytes. -/
theorem bytesOfText_textOfBytes (bytes : ByteArray) : bytesOfText (textOfBytes bytes) = bytes := by
  have byte (value : UInt8) : UInt8.ofNat (Char.ofNat value.toNat).toNat = value := by
    have valid : Nat.isValidChar value.toNat := .inl (by have := value.toNat_lt; omega)
    rw [Char.toNat_ofNat, if_pos valid, UInt8.ofNat_toNat]
  apply ByteArray.ext
  apply Array.ext'
  rw [bytesOfText, textOfBytes, Bytes.toList_foldl_push, String.toList_ofList,
    Bytes.toList_eq, List.map_map]
  simp [Function.comp_def, byte]

/-- The message that a sending function makes of its arguments, and its result if the message
is sent. -/
def outgoing? (store : Store) (args : List Arg) : HostFunction → Option (ByteArray × Float)
  | .midiSend =>
    let (first, second, third) := shortMessage args
    some (Bytes.pack [first, second, third], Float.ofNat first.toNat)
  | .midiSendMemory =>
    (bytesInMemory? store.memory (argValue args 1) (argValue args 2)).map fun bytes =>
      (bytes, Float.ofNat bytes.size)
  | .midiSendText =>
    (store.strings.find? (argValue args 1)).map fun text =>
      (bytesOfText text, Float.ofNat (bytesOfText text).size)
  | .midiSendExclusive =>
    (bytesInMemory? store.memory (argValue args 1) (argValue args 2)).map fun content =>
      (MidiLog.joined (exclusivePieces content), Float.ofNat content.size)
  | _ => none

end MidiFunctions

namespace HostFunction

open MidiFunctions

/-- A function that sends pushes one event, and changes nothing else. -/
theorem run_of_outgoing? (facts : Facts) {caller : Caller} (mayUse : caller.mayUseMidi = true)
    {function : HostFunction} {args : List Arg} {state : State} {message : ByteArray}
    {success : Float} (made : outgoing? state.1 args function = some (message, success)) :
    let event : MidiEvent := ⟨sendBus state.1, frame (argValue args 0), message⟩
    function.run facts caller args state =
      (if state.2.output.accepts event then success else 0.0, state.1,
        { state.2 with output := (state.2.output.push event).2 }) := by
  intro event
  have ran (sender : Store → MidiLog → List Arg → Float × MidiLog)
      (sent : sender state.1 state.2.output args =
        (if state.2.output.accepts event then success else 0.0,
          (state.2.output.push event).2)) :
      send caller sender args state =
        (if state.2.output.accepts event then success else 0.0, state.1,
          { state.2 with output := (state.2.output.push event).2 }) := by
    rw [send, if_pos mayUse, sent]
  cases function with
  | midiSend =>
      rcases short : shortMessage args with ⟨first, second, third⟩
      rw [outgoing?, short] at made
      cases made
      apply ran
      rw [sendShort, short]
      dsimp only
      rw [MidiFunctions.send, MidiLog.push_fst]
      rfl
  | midiSendMemory =>
      rcases Option.map_eq_some_iff.mp made with ⟨bytes, found, same⟩
      cases same
      apply ran
      rw [sendMemory, found]
      dsimp only
      rw [MidiFunctions.send, MidiLog.push_fst]
  | midiSendText =>
      rcases Option.map_eq_some_iff.mp made with ⟨text, found, same⟩
      cases same
      apply ran
      rw [sendText, found]
      dsimp only
      rw [MidiFunctions.send, MidiLog.push_fst]
  | midiSendExclusive =>
      rcases Option.map_eq_some_iff.mp made with ⟨content, found, same⟩
      cases same
      apply ran
      rw [MidiFunctions.sendExclusive, found]
      dsimp only
      rw [MidiLog.pushPieces_eq_push, MidiLog.push_fst]
  | _ => cases made

end HostFunction
end EffectHost

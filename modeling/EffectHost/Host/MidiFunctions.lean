import EffectHost.Code.Run
import EffectHost.Host.Surroundings

/-!
# Functions on MIDI

A script sends messages to the output and receives messages from the input.  Unless it
asks for all buses, it sends to bus zero and receives from bus zero.  A message that it
receives but cannot take goes on to the output unchanged.
-/

namespace EffectHost

open Number

namespace MidiFunctions

/-- The script addresses buses itself. -/
def isExtended (store : Store) : Bool :=
  store.read .extendedMidiBus != 0.0

/-- The bus to which the script sends. -/
def sendBus (store : Store) : UInt32 :=
  if isExtended store then
    UInt32.ofNat (round 0 (midiBuses - 1) (store.read .midiBus)).toNat
  else 0

/-- The frame named by an argument. -/
def frame (value : Float) : UInt32 :=
  UInt32.ofNat (toNatural32 value)

/-- The low eight bits of the whole part of a value. -/
def byteOf (value : Float) : UInt8 :=
  UInt8.ofNat (toSigned value % 256).toNat

/-- The bytes of a string, one for each character. -/
def bytesOfText (text : String) : ByteArray :=
  text.toList.foldl (fun bytes c => bytes.push (UInt8.ofNat c.toNat)) ByteArray.empty

/-- The string of bytes, one character for each. -/
def textOfBytes (bytes : ByteArray) : String :=
  String.ofList (bytes.toList.map fun byte => Char.ofNat byte.toNat)

/-- The bytes in a range of memory; zero past its end. -/
def bytesInMemory? (memory : Memory) (address count : Float) : Option ByteArray :=
  if address < 0.0 || count < 0.0 then none
  else
    let size := min (toNatural count) maxMidiMessage
    let values := memory.readRange (toNatural address) size
    let bytes := values.foldl (fun bytes value => bytes.push (byteOf value)) ByteArray.empty
    some (bytes ++ ⟨Array.replicate (size - values.size) 0⟩)

/-- Send a message; the result is `success` if the output takes it and zero otherwise. -/
def send (store : Store) (output : MidiLog) (args : List Arg) (message : ByteArray)
    (success : Float) : Float × MidiLog :=
  let pushed := output.push ⟨sendBus store, frame (argValue args 0), message⟩
  (if pushed.1 then success else 0.0, pushed.2)

/-- The three bytes of a short message.  With three arguments the last one holds the
second and third byte. -/
def shortMessage (args : List Arg) : UInt8 × UInt8 × UInt8 :=
  let first := byteOf (argValue args 1)
  if 4 ≤ args.length then (first, byteOf (argValue args 2), byteOf (argValue args 3))
  else
    let both := toSigned (argValue args 2)
    (first, byteOf (Float.ofInt both), byteOf (Float.ofInt (both / 256)))

/-- Send a short message; the result is its first byte. -/
def sendShort (store : Store) (output : MidiLog) (args : List Arg) : Float × MidiLog :=
  let (first, second, third) := shortMessage args
  send store output args ⟨#[first, second, third]⟩ (Float.ofNat first.toNat)

/-- Send a message from memory; the result is its size. -/
def sendMemory (store : Store) (output : MidiLog) (args : List Arg) : Float × MidiLog :=
  match bytesInMemory? store.memory (argValue args 1) (argValue args 2) with
  | some bytes => send store output args bytes (Float.ofNat bytes.size)
  | none => (0.0, output)

/-- Send a message from a string; the result is its size. -/
def sendText (store : Store) (output : MidiLog) (args : List Arg) : Float × MidiLog :=
  match store.strings.find? (argValue args 1) with
  | some text =>
    let bytes := bytesOfText text
    send store output args bytes (Float.ofNat bytes.size)
  | none => (0.0, output)

/-- The frame bytes of a system exclusive message. -/
def exclusiveStart : UInt8 := 0xF0

@[inherit_doc exclusiveStart]
def exclusiveEnd : UInt8 := 0xF7

/-- The pieces of a system exclusive message: its content between the frame bytes that it
does not bring along itself. -/
def exclusivePieces (content : ByteArray) : List ByteArray :=
  (if content.data[0]? == some exclusiveStart then [] else [⟨#[exclusiveStart]⟩]) ++ [content] ++
    (if content.data.back? == some exclusiveEnd then [] else [⟨#[exclusiveEnd]⟩])

/-- Send a system exclusive message from memory; the result is the size of its content. -/
def sendExclusive (store : Store) (output : MidiLog) (args : List Arg) : Float × MidiLog :=
  match bytesInMemory? store.memory (argValue args 1) (argValue args 2) with
  | some bytes =>
    let done := output.pushPieces (sendBus store) (frame (argValue args 0))
      (exclusivePieces bytes)
    (if done.1 then Float.ofNat bytes.size else 0.0, done.2)
  | none => (0.0, output)

/-- What a script does with an event: nothing if it cannot take it, or else the result of
the call and the store afterwards. -/
abbrev Acceptance := MidiEvent → Store → Option (Float × Store)

/-- Look for an event that is accepted.  Events that are not go to the output, as far as
it takes them. -/
def receiveFrom (accept : Acceptance) (allBuses : Bool) (store : Store)
    (input output : MidiLog) : Float × Store × MidiLog × MidiLog :=
  match _read : input.take? allBuses with
  | none => (0.0, store, input, output)
  | some (event, rest) =>
    match accept event store with
    | some (result, taken) =>
      let told := if allBuses then taken.write .midiBus (Float.ofNat event.bus.toNat) else taken
      (result, told, rest, output)
    | none => receiveFrom accept allBuses store rest (output.push event).2
termination_by input.bytes.size - input.place allBuses
decreasing_by
  have step := MidiLog.take?_advances _read
  rw [step.1]
  omega

/-- A byte of a message; zero past its end. -/
def messageByte (event : MidiEvent) (position : Nat) : Nat :=
  (event.message.data[position]?.map UInt8.toNat).getD 0

/-- Take a short message into variables: its frame, its first byte, and the other two
either in one variable or in two. -/
def acceptShort (args : List Arg) : Acceptance := fun event store =>
  if 3 < event.message.size then none
  else
    let byte (position : Nat) : Float := Float.ofNat (messageByte event position)
    let framed := assignArg args 0 store (Float.ofNat event.offset.toNat)
    let begun := assignArg args 1 framed (byte 0)
    let filled :=
      if 4 ≤ args.length then assignArg args 3 (assignArg args 2 begun (byte 1)) (byte 2)
      else assignArg args 2 begun (byte 1 + byte 2 * 256.0)
    some (Float.ofNat (max (messageByte event 0) 1), filled)

/-- Take a message of at most `most` bytes into memory. -/
def acceptMemory (args : List Arg) (address most : Nat) : Acceptance := fun event store =>
  if most < event.message.size then none
  else
    let values := event.message.data.map fun byte => Float.ofNat byte.toNat
    let stored := (store.writeRange address values).2
    some (Float.ofNat event.message.size,
      assignArg args 0 stored (Float.ofNat event.offset.toNat))

/-- Take a message into a string. -/
def acceptText (args : List Arg) (id : Float) : Acceptance := fun event store =>
  let set := store.setString id (textOfBytes event.message)
  if set.1 then
    some (Float.ofNat event.message.size,
      assignArg args 0 set.2 (Float.ofNat event.offset.toNat))
  else none

/-- How a message into memory is taken, if the arguments allow it. -/
def memoryAcceptance? (args : List Arg) : Option Acceptance :=
  if argValue args 1 < 0.0 || argValue args 2 < 0.0 then none
  else some (acceptMemory args (toNatural (argValue args 1)) (toNatural (argValue args 2)))

end MidiFunctions
end EffectHost

import EffectHost.DataFile.Streams

/-!
# Open files

A file that a script has opened is a stream of some kind, or the serializer.  All
understand the same operations; what one of them cannot do, it declines.  Only the
serializer is ever written to, and only while a state is being saved.
-/

namespace EffectHost

/-- What the serializer is doing. -/
inductive SerializeMode where
  | idle
  | reading
  | writing
deriving DecidableEq, Repr

/-- The stream through which a script saves and restores its own data. -/
structure Serializer where
  mode : SerializeMode := .idle
  stream : ByteStream := {}

namespace Serializer

/-- Begin to save or to restore; restoring reads `data`. -/
def start (mode : SerializeMode) (data : ByteArray) : Serializer :=
  { mode := mode, stream := { bytes := data } }

end Serializer

/-- An open file. -/
inductive OpenFile where
  | raw (stream : ByteStream)
  | text (stream : TextStream)
  | audio (stream : AudioStream)
  | serializer (state : Serializer)

namespace OpenFile

/-- Number of values left to read; -1 for a serializer that is written to. -/
def available : OpenFile → Int
  | .raw stream => stream.available
  | .text stream => stream.available
  | .audio stream => stream.available
  | .serializer state =>
    match state.mode with
    | .writing => -1
    | .reading => state.stream.available
    | .idle => 0

/-- Go back to the beginning.  What is written cannot be taken back. -/
def rewind : OpenFile → OpenFile
  | .raw stream => .raw stream.rewind
  | .text stream => .text stream.rewind
  | .audio stream => .audio stream.rewind
  | .serializer state =>
    if state.mode = .reading then .serializer { state with stream := state.stream.rewind }
    else .serializer state

/-- The file is read token by token or line by line. -/
def isText : OpenFile → Bool
  | .text _ => true
  | _ => false

/-- The file takes values and strings instead of giving them. -/
def isWriting : OpenFile → Bool
  | .serializer state => state.mode = .writing
  | _ => false

/-- Channels and frames per second of an audio stream. -/
def audioShape? : OpenFile → Option (Nat × Nat)
  | .audio stream => some (stream.channels, stream.rate)
  | _ => none

/-- Read from a byte stream; a failed reading leaves it as it is. -/
def readBytes (stream : ByteStream) (wrap : ByteStream → OpenFile)
    (result : Option (α × ByteStream)) : Option α × OpenFile :=
  match result with
  | some (value, next) => (some value, wrap next)
  | none => (none, wrap stream)

/-- Read the next value. -/
def readValue : OpenFile → Option Float × OpenFile
  | .raw stream => readBytes stream .raw stream.readValue?
  | .text stream => (stream.readValue.1, .text stream.readValue.2)
  | .audio stream =>
    let next := stream.readValues 1
    (next.1[0]?, .audio next.2)
  | .serializer state =>
    if state.mode = .reading then
      readBytes state.stream (fun stream => .serializer { state with stream := stream })
        state.stream.readValue?
    else (none, .serializer state)

/-- Read values one by one behind those already read, until `count` have been read or
there are none left. -/
def readEach : Nat → Array Float → OpenFile → Array Float × OpenFile
  | 0, done, file => (done, file)
  | count + 1, done, file =>
    match file.readValue with
    | (some value, next) => readEach count (done.push value) next
    | (none, next) => (done, next)

/-- Read up to `count` values. -/
def readValues (file : OpenFile) (count : Nat) : Array Float × OpenFile :=
  match file with
  | .audio stream =>
    let next := stream.readValues count
    (next.1, .audio next.2)
  | other => readEach count #[] other

/-- Read a value into each slot of a buffer, until it is full or there are none left.  The slots
behind those keep what they held.  The result begins with how many were read. -/
def fillEach : List Float → OpenFile → Nat × List Float × OpenFile
  | [], file => (0, [], file)
  | slot :: slots, file =>
    match file.readValue with
    | (some value, next) =>
      let others := fillEach slots next
      (others.1 + 1, value :: others.2.1, others.2.2)
    | (none, next) => (0, slot :: slots, next)

/-- Read values into a buffer.  An audio stream copies its samples at once. -/
def readInto (file : OpenFile) (buffer : List Float) : Nat × List Float × OpenFile :=
  match file with
  | .audio stream =>
    let next := stream.readValues buffer.length
    (next.1.size, next.1.toList ++ buffer.drop next.1.size, .audio next.2)
  | other => fillEach buffer other

/-- Append a value. -/
def writeValue : OpenFile → Float → Bool × OpenFile
  | .serializer state, value =>
    if state.mode = .writing then
      (true, .serializer { state with stream := state.stream.writeValue value })
    else (false, .serializer state)
  | file, _ => (false, file)

/-- Read the next string. -/
def readString : OpenFile → Option String × OpenFile
  | .raw stream => readBytes stream .raw stream.readString?
  | .text stream => (stream.readString.1, .text stream.readString.2)
  | .audio stream => (none, .audio stream)
  | .serializer state =>
    if state.mode = .reading then
      readBytes state.stream (fun stream => .serializer { state with stream := stream })
        state.stream.readString?
    else (none, .serializer state)

/-- Append a string. -/
def writeString : OpenFile → String → Bool × OpenFile
  | .serializer state, words =>
    if state.mode = .writing then
      (true, .serializer { state with stream := state.stream.writeString words })
    else (false, .serializer state)
  | file, _ => (false, file)

end OpenFile
end EffectHost

import EffectHost.Bytes.Words
import EffectHost.Number.Numeral
import EffectHost.Number.Binary
import EffectHost.Text.Utf8

/-!
# Streams of data files

Scripts read values and strings from streams of three kinds.  A byte stream holds single
precision words, and strings with their sizes in front.  A text stream is read either
token by token or line by line.  An audio stream holds samples only.
-/

namespace EffectHost

open Bytes Number Text

/-- Bytes with a read position. -/
structure ByteStream where
  bytes : ByteArray := ByteArray.empty
  position : Nat := 0

namespace ByteStream

/-- Number of whole words left. -/
def available (stream : ByteStream) : Nat :=
  (stream.bytes.size - stream.position) / 4

/-- The next word as a value. -/
def readValue? (stream : ByteStream) : Option (Float × ByteStream) :=
  (wordAt? stream.bytes stream.position).map fun word =>
    (widen word, { stream with position := stream.position + 4 })

/-- The next string.  Nothing is read if it is not there as a whole. -/
def readString? (stream : ByteStream) : Option (String × ByteStream) := do
  let size ← wordAt? stream.bytes stream.position
  let start := stream.position + 4
  let behind := start + size.toNat
  if behind ≤ stream.bytes.size then
    some (Utf8.decode (stream.bytes.extract start behind), { stream with position := behind })
  else none

/-- Append a value. -/
def writeValue (stream : ByteStream) (value : Float) : ByteStream :=
  { stream with bytes := pushWord stream.bytes (narrow value) }

/-- Append a string behind its size. -/
def writeString (stream : ByteStream) (text : String) : ByteStream :=
  let encoded := Utf8.encode text
  { stream with
    bytes := pushWord stream.bytes (UInt32.ofNat encoded.size) ++ encoded }

/-- Go back to the first byte. -/
def rewind (stream : ByteStream) : ByteStream :=
  { stream with position := 0 }

end ByteStream

/-- Lines of text, of which some have been begun. -/
structure TextStream where
  lines : List (List Char)
  /-- The lines that have not been begun. -/
  unread : List (List Char)
  /-- The unread tokens of the line that was begun last. -/
  pending : List (List Char) := []

namespace TextStream

/-- Drop the carriage return in front of a line feed. -/
def dropReturn (line : List Char) : List Char :=
  if line.getLast? == some '\r' then line.dropLast else line

/-- The lines of a text.  The part behind the last line feed is a line unless it is
empty, and ends in whatever it ends in. -/
def splitLines (text : List Char) : List (List Char) :=
  let parts := text.splitOn '\n'
  let last := parts.getLast?.getD []
  parts.dropLast.map dropReturn ++ if last.isEmpty then [] else [last]

/-- A stream at the beginning of a text. -/
def ofText (text : String) : TextStream :=
  let lines := splitLines text.toList
  { lines := lines, unread := lines }

/-- The tokens of a line: what stands between blanks and commas in front of the first
slash. -/
def tokens (line : List Char) : List (List Char) :=
  ((line.takeWhile (· != '/')).splitOnP fun c => isBlank c || c == ',').filter
    fun token => !token.isEmpty

/-- The first token of some lines, with the tokens behind it in its line and the lines
behind that. -/
def firstToken? : List (List Char) →
    Option (List Char × List (List Char) × List (List Char))
  | [] => none
  | line :: unread =>
    match tokens line with
    | token :: pending => some (token, pending, unread)
    | [] => firstToken? unread

/-- The next token, from the line that was begun or from a later one.  Where there is
none, all lines have been begun. -/
def nextToken (stream : TextStream) : Option (List Char) × TextStream :=
  match stream.pending with
  | token :: pending => (some token, { stream with pending := pending })
  | [] =>
    match firstToken? stream.unread with
    | some (token, pending, unread) =>
      (some token, { stream with pending := pending, unread := unread })
    | none => (none, { stream with unread := [] })

/-- The next token as a value. -/
def readValue (stream : TextStream) : Option Float × TextStream :=
  let next := stream.nextToken
  (next.1.map fun token => (numberPrefix token).1, next.2)

/-- The next line that has not been begun.  What is left of the line that was begun is
given up. -/
def readString (stream : TextStream) : Option String × TextStream :=
  match stream.unread with
  | line :: unread =>
    (some (String.ofList line), { stream with pending := [], unread := unread })
  | [] => (none, { stream with pending := [] })

/-- Number of tokens left. -/
def available (stream : TextStream) : Nat :=
  stream.unread.foldl (fun total line => total + (tokens line).length) stream.pending.length

/-- Go back to the first line. -/
def rewind (stream : TextStream) : TextStream :=
  { stream with unread := stream.lines, pending := [] }

end TextStream

/-- Samples with a read position. -/
structure AudioStream where
  channels : Nat
  rate : Nat
  samples : Array Float
  position : Nat := 0

namespace AudioStream

/-- Number of samples left. -/
def available (stream : AudioStream) : Nat :=
  stream.samples.size - stream.position

/-- As many of the next samples as there are, up to `count`. -/
def readValues (stream : AudioStream) (count : Nat) : Array Float × AudioStream :=
  let values := stream.samples.extract stream.position (stream.position + count)
  (values, { stream with position := stream.position + values.size })

/-- Go back to the first sample. -/
def rewind (stream : AudioStream) : AudioStream :=
  { stream with position := 0 }

end AudioStream
end EffectHost

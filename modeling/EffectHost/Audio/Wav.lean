import EffectHost.Bytes.Words
import EffectHost.Disk.Basic
import EffectHost.Number.Binary

/-!
# WAV files

A WAV file is a sequence of chunks: one that describes the samples, one that holds
them, and others that are passed over.  Integer samples of eight to thirty-two bits are
scaled to the range from -1 to 1, and every sample is a single precision number.
Files are written with 32-bit floating point samples.
-/

namespace EffectHost

open Bytes Number

/-- Decoded audio. -/
structure Wav where
  channels : Nat
  /-- Frames per second. -/
  rate : Nat
  /-- Interleaved samples. -/
  samples : Array Float

/-- Why a file holds no usable audio. -/
inductive WavFault where
  /-- The system refuses the file. -/
  | system (fault : SystemFault)
  /-- The file ends early. -/
  | short
  | malformed (reason : String)
  | unsupported
  | tooWide
deriving DecidableEq, Repr

/-- The fault in words. -/
def WavFault.message : WavFault → String
  | .system fault => fault.message
  | .short => "Failed to read enough bytes."
  | .malformed reason => "Ill-formed WAVE file: " ++ reason
  | .unsupported => "The wave format of the file is not supported."
  | .tooWide => "The sample has more bits than the destination type."

namespace Wav

/-- How samples are stored. -/
structure Layout where
  channels : Nat
  rate : Nat
  bits : Nat
  /-- Samples are floating point numbers. -/
  isFloat : Bool
  bytesPerSample : Nat
deriving DecidableEq, Repr

/-- A file whose chunks have been told apart: the layout, the announced number of
samples, and the bytes from the first sample on. -/
structure Opened where
  layout : Layout
  sampleCount : Nat
  body : List UInt8

/-- Take a number of bytes. -/
def take (count : Nat) (bytes : List UInt8) : Except WavFault (List UInt8 × List UInt8) :=
  let taken := bytes.take count
  if taken.length < count then .error .short else .ok (taken, bytes.drop count)

/-- The number spelled by bytes, the least significant first. -/
def number (bytes : List UInt8) : Nat :=
  bytes.foldr (fun byte total => byte.toNat + 256 * total) 0

/-- Take a number of the given width. -/
def takeNumber (width : Nat) (bytes : List UInt8) : Except WavFault (Nat × List UInt8) := do
  let parts ← take width bytes
  .ok (number parts.1, parts.2)

/-- The four letters of a tag. -/
def tag (letters : String) : List UInt8 :=
  letters.toList.map fun c => UInt8.ofNat c.toNat

/-- Insist on a tag. -/
def takeTag (letters : String) (bytes : List UInt8) : Except WavFault (List UInt8) := do
  let parts ← take 4 bytes
  if parts.1 == tag letters then .ok parts.2
  else .error (.malformed ("no " ++ letters ++ " tag found"))

/-- The last fourteen bytes of the two known extended formats. -/
def subformatTail : List UInt8 :=
  [0, 0, 0, 0, 0x10, 0, 0x80, 0, 0, 0xAA, 0, 0x38, 0x9B, 0x71]

/-- The sizes in bits of integer samples. -/
def integerDepths : List Nat :=
  [8, 16, 24, 32]

/-- The sizes in bits that an integer format with further fields may name. -/
def namedDepths : List Nat :=
  [8, 16, 24]

/-- What follows the common fields of an integer format. -/
def readIntegerFormat (size : Nat) (layout : Layout) (bytes : List UInt8) :
    Except WavFault (Layout × List UInt8) :=
  if size == 16 then .ok (layout, bytes)
  else if size == 18 || size == 40 then do
    let extra ← takeNumber 2 bytes
    if !namedDepths.contains layout.bits then
      .error (.malformed "bits per sample is not 8 or 16")
    else
      let rest ← take (size - 18) extra.2
      .ok (layout, rest.2)
  else .error (.malformed "unexpected fmt chunk size")

/-- What follows the common fields of a floating point format. -/
def readFloatFormat (size : Nat) (layout : Layout) (bytes : List UInt8) :
    Except WavFault (Layout × List UInt8) :=
  if size != 16 && size != 18 then .error (.malformed "unexpected fmt chunk size")
  else do
    let extra ← if size == 18 then takeNumber 2 bytes else .ok (0, bytes)
    if extra.1 != 0 then .error (.malformed "unexpected WAVEFORMATEX size")
    else if layout.bits != 32 then .error (.malformed "bits per sample is not 32")
    else .ok ({ layout with isFloat := true }, extra.2)

/-- What follows the common fields of an extended format. -/
def readExtendedFormat (size : Nat) (layout : Layout) (bytes : List UInt8) :
    Except WavFault (Layout × List UInt8) :=
  if size < 40 then .error (.malformed "unexpected fmt chunk size")
  else do
    let extra ← takeNumber 2 bytes
    if extra.1 != 22 then .error (.malformed "unexpected WAVEFORMATEXTENSIBLE size")
    else
      let validBits ← takeNumber 2 extra.2
      let speakers ← takeNumber 4 validBits.2
      let subformat ← take 16 speakers.2
      let bits := if 0 < validBits.1 then validBits.1 else layout.bits
      if subformat.1 == [1, 0] ++ subformatTail then
        .ok ({ layout with bits := bits }, subformat.2)
      else if subformat.1 == [3, 0] ++ subformatTail then
        .ok ({ layout with bits := bits, isFloat := true }, subformat.2)
      else .error .unsupported

/-- Read the chunk that describes the samples. -/
def readFormat (size : Nat) (bytes : List UInt8) : Except WavFault (Layout × List UInt8) :=
  if size < 16 then .error (.malformed "invalid fmt chunk size")
  else do
    let format ← takeNumber 2 bytes
    let channels ← takeNumber 2 format.2
    let rate ← takeNumber 4 channels.2
    let byteRate ← takeNumber 4 rate.2
    let frameSize ← takeNumber 2 byteRate.2
    let bits ← takeNumber 2 frameSize.2
    if channels.1 == 0 then .error (.malformed "file contains zero channels")
    else
      let width := frameSize.1 / channels.1
      if twoTo 16 ≤ 8 * width || 8 * width < bits.1 then
        .error (.malformed "sample bits exceeds size of sample")
      else if frameSize.1 * rate.1 != byteRate.1 then
        .error (.malformed "inconsistent fmt chunk")
      else if bits.1 % 8 != 0 then
        .error (.malformed "bits per sample is not a multiple of 8")
      else if bits.1 == 0 then .error (.malformed "bits per sample is 0")
      else
        let layout : Layout := ⟨channels.1, rate.1, bits.1, false, width⟩
        if format.1 == 1 then readIntegerFormat size layout bits.2
        else if format.1 == 3 then readFloatFormat size layout bits.2
        else if format.1 == 0xFFFE then readExtendedFormat size layout bits.2
        else .error .unsupported

/-- Walk over the chunks up to the samples.  Every chunk takes eight bytes at least,
so that the length of the file bounds the walk. -/
def readChunks : Nat → Option Layout → List UInt8 → Except WavFault (Layout × Nat × List UInt8)
  | 0, _, _ => .error .short
  | steps + 1, layout?, bytes => do
    let kind ← take 4 bytes
    let size ← takeNumber 4 kind.2
    if kind.1 == tag "fmt " then
      let format ← readFormat size.1 size.2
      readChunks steps (some format.1) format.2
    else if kind.1 == tag "fact" then
      let fact ← takeNumber 4 size.2
      readChunks steps layout? fact.2
    else if kind.1 == tag "data" then
      match layout? with
      | some layout => .ok (layout, size.1, size.2)
      | none => .error (.malformed "missing fmt chunk")
    else
      let skipped ← take size.1 size.2
      readChunks steps layout? skipped.2

/-- Find the samples of a file. -/
def openBytes (bytes : ByteArray) : Except WavFault Opened := do
  let riff ← takeTag "RIFF" bytes.data.toList
  let size ← takeNumber 4 riff
  let wave ← takeTag "WAVE" size.2
  let found ← readChunks bytes.size none wave
  let layout := found.1
  let count := found.2.1 / layout.bytesPerSample
  if count * layout.bytesPerSample != found.2.1 then
    .error (.malformed "data chunk length is not a multiple of sample size")
  else if count % layout.channels != 0 then .error (.malformed "invalid data chunk length")
  else .ok ⟨layout, count, found.2.2⟩

/-- Find the samples of the file at a path. -/
def openFile (disk : Disk) (path : String) : Except WavFault Opened :=
  match disk.read path with
  | .error fault => .error (.system fault)
  | .ok bytes => openBytes bytes

/-- A number of the given width, counted in two's complement. -/
def signedNumber (width : Nat) (bytes : List UInt8) : Int :=
  let value := number bytes
  if value < twoTo (8 * width - 1) then value else (value : Int) - twoTo (8 * width)

/-- The value of an integer sample, of which single bytes count from 128 upwards. -/
def integerSample (width bits : Nat) (bytes : List UInt8) : Except WavFault Int :=
  match width, bits with
  | 1, 8 => .ok ((number bytes : Int) - 128)
  | 2, 16 => .ok (signedNumber 2 bytes)
  | 3, 24 => .ok (signedNumber 3 bytes)
  | 4, 24 => .ok (signedNumber 3 (bytes.take 3))
  | 4, 32 => .ok (signedNumber 4 bytes)
  | _, _ => if 4 < width then .error .tooWide else .error .unsupported

/-- The value of a floating point sample. -/
def floatSample (width bits : Nat) (bytes : List UInt8) : Except WavFault Float :=
  match width, bits with
  | 4, 32 => .ok (widen (UInt32.ofNat (number bytes)))
  | _, _ => if 4 < width then .error .tooWide else .error .unsupported

/-- A combination of width and bits that can be read, or the fault that reading the
first sample runs into before it takes any bytes. -/
def checkWidth (layout : Layout) : Except WavFault Unit :=
  if layout.isFloat then (floatSample layout.bytesPerSample layout.bits []).map fun _ => ()
  else (integerSample layout.bytesPerSample layout.bits []).map fun _ => ()

/-- One sample as a value. -/
def sample (layout : Layout) (bytes : List UInt8) : Except WavFault Float :=
  if layout.isFloat then floatSample layout.bytesPerSample layout.bits bytes
  else
    (integerSample layout.bytesPerSample layout.bits bytes).map fun value =>
      roundToSingle (Float.ofInt value) / Float.ofNat (twoTo (layout.bits - 1))

/-- Read a number of samples behind those already read. -/
def readSamples (layout : Layout) : Nat → List UInt8 → Array Float →
    Except WavFault (Array Float)
  | 0, _, done => .ok done
  | count + 1, bytes, done =>
    match checkWidth layout with
    | .error fault => .error fault
    | .ok _ =>
      match take layout.bytesPerSample bytes with
      | .error fault => .error fault
      | .ok parts =>
        match sample layout parts.1 with
        | .error fault => .error fault
        | .ok value => readSamples layout count parts.2 (done.push value)

/-- Decode the samples of a file.  What goes wrong is told in words. -/
def decode (file : Opened) : Except String Wav :=
  let layout := file.layout
  if !layout.isFloat && !integerDepths.contains layout.bits then
    .error (toString layout.bits ++ "-bit integer audio is not supported")
  else
    match readSamples layout file.sampleCount file.body #[] with
    | .ok samples => .ok ⟨layout.channels, layout.rate, samples⟩
    | .error fault =>
      let kind := if layout.isFloat then "float" else toString layout.bits ++ "-bit"
      .error ("failed to read " ++ kind ++ " samples: " ++ fault.message)

/-- The bytes of a number of the given width. -/
def numberBytes (width value : Nat) : List UInt8 :=
  (List.range width).map fun position => UInt8.ofNat (value / twoTo (8 * position))

/-- Number of places for speakers; further channels have no place of their own. -/
def speakerPlaces : Nat := 18

/-- The bytes of a file with floating point samples. -/
def toBytes (wav : Wav) : ByteArray :=
  let frameSize := 4 * wav.channels
  let size := 4 * wav.samples.size
  let format :=
    numberBytes 2 0xFFFE ++ numberBytes 2 wav.channels ++ numberBytes 4 wav.rate ++
      numberBytes 4 (frameSize * wav.rate) ++ numberBytes 2 frameSize ++ numberBytes 2 32 ++
      numberBytes 2 22 ++ numberBytes 2 32 ++
      numberBytes 4 (twoTo (min wav.channels speakerPlaces) - 1) ++
      [3, 0] ++ subformatTail
  let head :=
    tag "RIFF" ++ numberBytes 4 (20 + format.length + size) ++ tag "WAVE" ++
      tag "fmt " ++ numberBytes 4 format.length ++ format ++
      tag "data" ++ numberBytes 4 size
  wav.samples.foldl (fun bytes value => pushWord bytes (narrow value)) (pack head)

end Wav
end EffectHost

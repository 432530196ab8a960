import EffectHost.Audio.Wav
import EffectHost.DataFile.Handle
import EffectHost.Disk.Search
import EffectHost.Failure

/-!
# Opening data files

A data file is looked for next to the script and then under the data root.  How it is
read depends on its extension: as text, as raw words, or else as audio by the first format
that claims it.
-/

namespace EffectHost
namespace DataFile

/-- The file that a script names.  Absolute paths count only where the script spells
them out itself. -/
def find? (disk : Disk) (name : String) (allowAbsolute : Bool)
    (folder? root? : Option String) : Option String :=
  if Path.isAbsolute name then
    if allowAbsolute && disk.isFile name then some name else none
  else disk.resolveAmong? (folder?.toList ++ root?.toList) name

/-- The extension of a path in small letters. -/
def extension? (path : String) : Option String :=
  ((Path.fileName? path).bind Path.extensionOf?).map Text.asciiLower

end DataFile

/-- A format of audio files: which files it claims, and how it reads one. -/
structure AudioFormat where
  claims : Disk → String → Bool
  read : Disk → String → Except Failure AudioStream

/-- The format that every host has. -/
def AudioFormat.wav : AudioFormat where
  claims _ path := DataFile.extension? path == some "wav"
  read disk path :=
    match Wav.openFile disk path with
    | .error fault => .error (.unusable path ("failed to open WAV file: " ++ fault.message))
    | .ok opened =>
      match Wav.decode opened with
      | .error reason => .error (.unusable path reason)
      | .ok wav => .ok { channels := wav.channels, rate := wav.rate, samples := wav.samples }

namespace DataFile

/-- The file at a path is one that can be opened: its extension tells that it holds text or
raw words, or a format claims it. -/
def isKnown (disk : Disk) (formats : List AudioFormat) (path : String) : Bool :=
  match extension? path with
  | some "txt" | some "raw" => true
  | _ => formats.any fun format => format.claims disk path

/-- Open the file at a path. -/
def openPath (disk : Disk) (formats : List AudioFormat) (path : String) :
    Except Failure OpenFile :=
  let contents := (disk.read path).mapError (Failure.unreadable path)
  match extension? path with
  | some "txt" => contents.map fun bytes => .text (TextStream.ofText (Utf8.decode bytes))
  | some "raw" => contents.map fun bytes => .raw { bytes := bytes }
  | _ =>
    match formats.find? fun format => format.claims disk path with
    | some format => (format.read disk path).map .audio
    | none => .error (.unusable path "unrecognized file type")

end DataFile
end EffectHost

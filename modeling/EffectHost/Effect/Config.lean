import EffectHost.DataFile.Open

/-!
# Configuration and reports

The host decides once for an effect where imports and data files are looked for, which audio
files can be read and how its MIDI logs grow.  While a script is loaded and compiled the effect
reports what the user should know.
-/

namespace EffectHost

/-- Size of the MIDI logs unless the host asks for another one. -/
def standardMidiCapacity : Nat := 4096

/-- What the host decides once for an effect. -/
structure Config where
  /-- Folder of shared imports. -/
  importRoot? : Option String := none
  /-- Folder of shared data files. -/
  dataRoot? : Option String := none
  /-- The formats of audio files, in the order in which they are asked. -/
  formats : List AudioFormat := [.wav]
  midiCapacity : Nat := standardMidiCapacity
  /-- The MIDI output may grow past its capacity. -/
  midiOutputExtensible : Bool := true

/-- Have another format asked before those that are there. -/
def Config.withFormat (config : Config) (format : AudioFormat) : Config :=
  { config with formats := format :: config.formats }

/-- Limit the MIDI output to a number of bytes. -/
def Config.withFixedMidiOutput (config : Config) (capacity : Nat) : Config :=
  { config with midiCapacity := capacity, midiOutputExtensible := false }

/-- How grave a report is. -/
inductive ReportLevel where
  | warning
  | error
deriving DecidableEq, Repr

/-- A message for the user. -/
structure Report where
  level : ReportLevel
  message : String
deriving DecidableEq, Repr

end EffectHost

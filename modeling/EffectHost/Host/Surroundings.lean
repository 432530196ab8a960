import EffectHost.Code.Run
import EffectHost.DataFile.Open
import EffectHost.DataFile.Table
import EffectHost.Host.Keys
import EffectHost.Host.Variable
import EffectHost.Mask
import EffectHost.Midi.Log
import EffectHost.Script.Header

/-!
# What host functions reach

A host function sees the script's store, and around it the slider masks, the open files,
the MIDI logs and the keyboard, all of which it may change.  What it may do depends on
who runs the code; what files it finds depends on facts about the loaded script.
-/

namespace EffectHost

/-- Which sliders are visible, and of which a change or automation has been announced. -/
structure SliderMasks where
  visible : Mask := Mask.empty
  changed : Mask := Mask.empty
  automated : Mask := Mask.empty
deriving DecidableEq, Repr

namespace SliderMasks

/-- The sliders that a header shows at first. -/
def initiallyVisible (header : Header) : Mask :=
  header.sliders.toList.foldl (fun mask slider =>
    if slider.initiallyVisible then mask.union (Mask.single slider.slot) else mask) Mask.empty

end SliderMasks

/-- What host functions may change besides the store. -/
structure Surroundings where
  masks : SliderMasks := {}
  files : FileTable := {}
  input : MidiLog
  output : MidiLog
  keyboard : Keyboard := {}

/-- Who runs the code. -/
structure Caller where
  role : Role
  /-- The MIDI logs take part. -/
  hasMidi : Bool := false
  /-- The keyboard takes part. -/
  hasKeyboard : Bool := false

namespace Caller

/-- MIDI functions act. -/
def mayUseMidi (caller : Caller) : Bool :=
  caller.role = .audio && caller.hasMidi

/-- Keyboard functions act. -/
def mayUseKeyboard (caller : Caller) : Bool :=
  caller.role = .drawing && caller.hasKeyboard

end Caller

/-- What is fixed while a script is loaded. -/
structure Facts where
  disk : Disk := Disk.empty
  header : Header := {}
  /-- Folder of the script. -/
  folder? : Option String := none
  /-- Folder of shared data files. -/
  dataRoot? : Option String := none
  /-- The formats of audio files. -/
  formats : List AudioFormat := [.wav]

/-- The value of an argument; zero if it is missing. -/
def argValue (args : List Arg) (position : Nat) : Float :=
  (args[position]?.map Arg.value).getD 0.0

/-- Write to an argument, if it is there and is a variable. -/
def assignArg (args : List Arg) (position : Nat) (store : Store) (value : Float) : Store :=
  match args[position]? with
  | some arg => arg.assign store value
  | none => store

end EffectHost

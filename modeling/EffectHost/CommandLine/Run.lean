import EffectHost.CommandLine.Assignment
import EffectHost.CommandLine.Command
import EffectHost.CommandLine.Describe
import EffectHost.Effect.Lifecycle
import EffectHost.Effect.Process
import EffectHost.Effect.Settings
import EffectHost.Preset.BankReader

/-!
# Running a command

A command reads the file system and either fails or prints a text.  A rendering also
writes one file.
-/

namespace EffectHost

/-- Why a command fails. -/
inductive CommandFault where
  | failed (failure : Failure)
  | notLoaded (path : String) (failure : Failure)
  | noBlock
  | notOpened (path : String) (fault : WavFault)
  | notDecoded (path reason : String)
  | badAssignment (fault : AssignmentFault)
  | notCreated (path : String) (fault : SystemFault)
deriving DecidableEq, Repr

/-- The fault in words. -/
def CommandFault.message : CommandFault → String
  | .failed failure => failure.chain
  | .notLoaded path failure => "failed to load " ++ path ++ ": " ++ failure.chain
  | .noBlock => "block size must be positive"
  | .notOpened path fault => "failed to open " ++ path ++ ": " ++ fault.message
  | .notDecoded path reason => "failed to decode " ++ path ++ ": " ++ reason
  | .badAssignment fault => fault.message
  | .notCreated path fault => "failed to create " ++ path ++ ": " ++ fault.message

/-- What a command prints, and the file that it writes. -/
structure CommandOutput where
  text : String := ""
  file? : Option (String × ByteArray) := none

namespace Command

/-- The effect of a command has no surface to draw on. -/
abbrev Silent := Effect Empty

/-- Describe a script. -/
def runInfo (disk : Disk) (path : String) (ignoreImports : Bool) :
    Except CommandFault CommandOutput := do
  let script ← (LoadedScript.load disk {} path ignoreImports).1.mapError
    (CommandFault.notLoaded path)
  .ok { text := script.toJson.pretty ++ "\n" }

/-- List the presets of a bank. -/
def runBank (disk : Disk) (path : String) (asJson : Bool) :
    Except CommandFault CommandOutput := do
  let bank ← (Bank.load disk path).mapError CommandFault.failed
  .ok { text := if asJson then bank.toJson.pretty ++ "\n" else bank.listing }

/-- Go on if an attempt succeeds. -/
def attempted (attempt : Effect.Attempt Empty) : Except CommandFault Silent :=
  match attempt.result with
  | .ok _ => .ok attempt.effect
  | .error failure => .error (.failed failure)

/-- Set the sliders that the user assigns. -/
def assignSliders (effect : Silent) (assignments : List String) :
    Except CommandFault Silent :=
  assignments.foldlM (fun effect text => do
    let assignment ← (Assignment.parse text).mapError CommandFault.badAssignment
    .ok (effect.setSlider assignment.slot assignment.value)) effect

/-- A compiled effect that is ready for an audio file. -/
def prepare (disk : Disk) (job : RenderJob) (rate : Nat) : Except CommandFault Silent := do
  let loaded ← attempted ((Effect.new disk {}).load job.script false)
  let compiled ← attempted (loaded.compile { skipDrawing := true })
  let timed := (compiled.setSampleRate (Float.ofNat rate)).setBlockSize
    (job.blockSize % Number.twoTo 32)
  assignSliders timed job.assignments

/-- The samples of one channel among interleaved ones. -/
def channelOf (samples : Array Float) (channels frames channel : Nat) : Channel :=
  Array.ofFn fun frame : Fin frames => samples.getD (frame * channels + channel) 0.0

/-- Process a number of frames in blocks.  The result has the output channels, which are
appended to those of the blocks before. -/
def renderBlocks (size : Nat) (positive : 0 < size) (inputs : List Channel) (start left : Nat)
    (done : List Channel) (effect : Silent) : List Channel :=
  if left = 0 then done
  else
    let frames := min size left
    let block := inputs.map fun channel => channel.extract start (start + frames)
    let blank := done.map fun _ => Array.replicate frames 0.0
    let processed := effect.process .single block blank frames
    renderBlocks size positive inputs (start + frames) (left - frames)
      (List.zipWith (· ++ ·) done processed.1) processed.2
termination_by left
decreasing_by omega

/-- The samples of channels of `frames` frames, interleaved. -/
def interleave (channels : List Channel) (frames : Nat) : Array Float :=
  (List.range frames).foldl (fun samples frame =>
    channels.foldl (fun samples channel => samples.push (channel.getD frame 0.0)) samples) #[]

/-- Tell what was rendered. -/
def renderText (frames inputs outputs : Nat) (path : String) : String :=
  "Rendered " ++ toString frames ++ " frame(s), " ++ toString inputs ++ " -> " ++
    toString outputs ++ " channel(s): " ++ path ++ "\n"

/-- Decode the input of a rendering. -/
def readInput (disk : Disk) (path : String) : Except CommandFault Wav := do
  let opened ← (Wav.openFile disk path).mapError (CommandFault.notOpened path)
  (Wav.decode opened).mapError (CommandFault.notDecoded path)

/-- Send an audio file through a script.  A script that declares no outputs gets as many
as there are inputs. -/
def runRender (disk : Disk) (job : RenderJob) : Except CommandFault CommandOutput :=
  if positive : 0 < job.blockSize then do
    let input ← readInput disk job.input
    let frames := input.samples.size / input.channels
    let inputs := (List.range input.channels).map (channelOf input.samples input.channels frames)
    let effect ← prepare disk job input.rate
    let declared := effect.header.outPins.count
    let count := if 0 < declared then declared else input.channels
    let outputs := renderBlocks job.blockSize positive inputs 0 frames
      (List.replicate count #[]) effect
    let wav : Wav := ⟨count, input.rate, interleave outputs frames⟩
    let _ ← (disk.placeFor job.output).mapError (CommandFault.notCreated job.output)
    .ok { text := renderText frames input.channels count job.output
          file? := some (job.output, wav.toBytes) }
  else .error .noBlock

/-- Run a command. -/
def run (disk : Disk) : Command → Except CommandFault CommandOutput
  | .idle => .ok {}
  | .info script ignoreImports => runInfo disk script ignoreImports
  | .bank path asJson => runBank disk path asJson
  | .render job => runRender disk job

end Command
end EffectHost

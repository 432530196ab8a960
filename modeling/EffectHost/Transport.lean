/-!
# Transport

Once per block the host tells a script the tempo, whether it plays, and where.  Going
from a state in which no audio runs to one in which it does starts playback.
-/

namespace EffectHost

/-- What the transport is doing. -/
inductive PlaybackState where
  | stopped
  | playing
  | paused
  | recording
  | recordingPaused
deriving DecidableEq, Repr

namespace PlaybackState

/-- Every state. -/
def all : List PlaybackState :=
  [.stopped, .playing, .paused, .recording, .recordingPaused]

/-- The number by which scripts know a state. -/
def value : PlaybackState → Float
  | .stopped => 0.0
  | .playing => 1.0
  | .paused => 2.0
  | .recording => 5.0
  | .recordingPaused => 6.0

/-- Audio runs in real time. -/
def isRunning : PlaybackState → Bool
  | .playing | .recording => true
  | .stopped | .paused | .recordingPaused => false

/-- The name of a state. -/
def name : PlaybackState → String
  | .stopped => "Stopped"
  | .playing => "Playing"
  | .paused => "Paused"
  | .recording => "Recording"
  | .recordingPaused => "RecordingPaused"

/-- Changing from one state to the next starts playback. -/
def starts (previous next : PlaybackState) : Bool :=
  !previous.isRunning && next.isRunning

end PlaybackState

/-- What the host reports about its transport. -/
structure TimeInfo where
  /-- Beats per minute. -/
  tempo : Float := 120.0
  state : PlaybackState := .playing
  /-- Position in seconds. -/
  seconds : Float := 0.0
  /-- Position in quarter notes. -/
  beats : Float := 0.0
  /-- Time signature. -/
  beatsPerBar : Nat := 4
  beatUnit : Nat := 4

end EffectHost

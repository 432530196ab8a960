import EffectHost.Code.Machine
import EffectHost.Script.Slider
import EffectHost.Transport

/-!
# Variables of the host

Host and script talk through variables with fixed names: the audio channels, the sliders,
the transport, and the state of MIDI, latency compensation, drawing and the mouse.  Their
cells are the first ones of a machine, in the order of `HostVariable.all`, and never
change.
-/

namespace EffectHost

/-- Number of channel variables. -/
abbrev channelVariables : Nat := 64

/-- A variable of the host. -/
inductive HostVariable where
  | channel (index : Fin channelVariables)
  | slider (slot : Fin sliderSlots)
  | sampleRate
  | channelCount
  | blockSize
  | trigger
  | tempo
  | playState
  | playPosition
  | beatPosition
  | beatsPerBar
  | beatUnit
  /-- The script does without a new start when playback starts. -/
  | noInit
  | noDenormals
  /-- The script addresses buses itself. -/
  | extendedMidiBus
  | midiBus
  | delay
  | delayBottom
  | delayTop
  | delayMidi
  | gfxRed
  | gfxGreen
  | gfxBlue
  | gfxAlpha
  | gfxAlpha2
  | gfxWidth
  | gfxHeight
  | gfxX
  | gfxY
  | gfxMode
  | gfxClear
  | gfxTextHeight
  | gfxDestination
  | gfxRetina
  | mouseX
  | mouseY
  | mouseButtons
  | mouseWheel
  | mouseSideWheel
deriving DecidableEq, Repr

namespace HostVariable

/-- The variables that are neither channels nor sliders, with their names. -/
def named : List (HostVariable × String) :=
  [ (.sampleRate, "srate"), (.channelCount, "num_ch"), (.blockSize, "samplesblock"),
    (.trigger, "trigger"), (.tempo, "tempo"), (.playState, "play_state"),
    (.playPosition, "play_position"), (.beatPosition, "beat_position"),
    (.beatsPerBar, "ts_num"), (.beatUnit, "ts_denom"), (.noInit, "ext_noinit"),
    (.noDenormals, "ext_nodenorm"), (.extendedMidiBus, "ext_midi_bus"),
    (.midiBus, "midi_bus"), (.delay, "pdc_delay"), (.delayBottom, "pdc_bot_ch"),
    (.delayTop, "pdc_top_ch"), (.delayMidi, "pdc_midi"), (.gfxRed, "gfx_r"),
    (.gfxGreen, "gfx_g"), (.gfxBlue, "gfx_b"), (.gfxAlpha, "gfx_a"), (.gfxAlpha2, "gfx_a2"),
    (.gfxWidth, "gfx_w"), (.gfxHeight, "gfx_h"), (.gfxX, "gfx_x"), (.gfxY, "gfx_y"),
    (.gfxMode, "gfx_mode"), (.gfxClear, "gfx_clear"), (.gfxTextHeight, "gfx_texth"),
    (.gfxDestination, "gfx_dest"), (.gfxRetina, "gfx_ext_retina"), (.mouseX, "mouse_x"),
    (.mouseY, "mouse_y"), (.mouseButtons, "mouse_cap"), (.mouseWheel, "mouse_wheel"),
    (.mouseSideWheel, "mouse_hwheel") ]

/-- Position of a variable behind the channels and sliders. -/
def position : HostVariable → Nat
  | .channel _ | .slider _ | .sampleRate => 0
  | .channelCount => 1
  | .blockSize => 2
  | .trigger => 3
  | .tempo => 4
  | .playState => 5
  | .playPosition => 6
  | .beatPosition => 7
  | .beatsPerBar => 8
  | .beatUnit => 9
  | .noInit => 10
  | .noDenormals => 11
  | .extendedMidiBus => 12
  | .midiBus => 13
  | .delay => 14
  | .delayBottom => 15
  | .delayTop => 16
  | .delayMidi => 17
  | .gfxRed => 18
  | .gfxGreen => 19
  | .gfxBlue => 20
  | .gfxAlpha => 21
  | .gfxAlpha2 => 22
  | .gfxWidth => 23
  | .gfxHeight => 24
  | .gfxX => 25
  | .gfxY => 26
  | .gfxMode => 27
  | .gfxClear => 28
  | .gfxTextHeight => 29
  | .gfxDestination => 30
  | .gfxRetina => 31
  | .mouseX => 32
  | .mouseY => 33
  | .mouseButtons => 34
  | .mouseWheel => 35
  | .mouseSideWheel => 36

/-- The cell of a variable. -/
def cell : HostVariable → Cell
  | .channel index => ⟨index⟩
  | .slider slot => ⟨channelVariables + slot⟩
  | other => ⟨channelVariables + sliderSlots + other.position⟩

/-- The name of a variable. -/
def name : HostVariable → String
  | .channel index => "spl" ++ toString index.val
  | .slider slot => Slider.standardName slot
  | other => (named.lookup other).getD ""

/-- The positions follow the list of names. -/
theorem named_position : named.map (fun entry => entry.1.position) = List.range 37 := by
  decide

/-- Every variable, in the order of the cells. -/
def all : List HostVariable :=
  (List.finRange channelVariables).map .channel ++ (List.finRange sliderSlots).map .slider ++
    named.map Prod.fst

/-- The value of a variable before anything was set. -/
def initial : HostVariable → Float
  | .sampleRate => 44100.0
  | .blockSize => 128.0
  | .tempo => 120.0
  | .playState => PlaybackState.playing.value
  | .beatsPerBar => 4.0
  | .beatUnit => 4.0
  | .gfxRed | .gfxGreen | .gfxBlue | .gfxAlpha | .gfxAlpha2 => 1.0
  | _ => 0.0

/-- The slot of the slider that a cell belongs to. -/
def sliderOf? (cell : Cell) : Option (Fin sliderSlots) :=
  if h : channelVariables ≤ cell.index ∧ cell.index < channelVariables + sliderSlots then
    some ⟨cell.index - channelVariables, by omega⟩
  else none

theorem sliderOf?_cell (slot : Fin sliderSlots) :
    sliderOf? (HostVariable.slider slot).cell = some slot := by
  have inRange : channelVariables ≤ (slider slot).cell.index ∧
      (slider slot).cell.index < channelVariables + sliderSlots := by
    simp only [cell]
    exact ⟨Nat.le_add_right _ _, Nat.add_lt_add_left slot.isLt _⟩
  unfold sliderOf?
  rw [dif_pos inRange]
  simp [cell]

end HostVariable

/-- A machine that knows the variables of the host and nothing else. -/
def Machine.hosted : Machine where
  store := { cells := (HostVariable.all.map HostVariable.initial).toArray }
  code := {
    names := HostVariable.all.foldl (fun names v => names.insert v.name v.cell) ∅
    registered := HostVariable.all.foldl (fun names v => names.insert v.name) ∅ }

namespace Store

/-- The value of a host variable. -/
def read (store : Store) (name : HostVariable) : Float :=
  store.get name.cell

/-- Set a host variable. -/
def write (store : Store) (name : HostVariable) (value : Float) : Store :=
  store.set name.cell value

/-- Set several host variables. -/
def writeAll (store : Store) (values : List (HostVariable × Float)) : Store :=
  values.foldl (fun store entry => store.write entry.1 entry.2) store

/-- Tell the script about the transport. -/
def applyTime (store : Store) (time : TimeInfo) : Store :=
  store.writeAll
    [ (.tempo, time.tempo), (.playState, time.state.value), (.playPosition, time.seconds),
      (.beatPosition, time.beats), (.beatsPerBar, Float.ofNat time.beatsPerBar),
      (.beatUnit, Float.ofNat time.beatUnit) ]

end Store
end EffectHost

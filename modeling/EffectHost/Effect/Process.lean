import EffectHost.Effect.Basic

/-!
# Processing

A cycle runs the script over one block of audio: its init sections if they are due, its
slider section if a slider has moved, its block section, and its sample section once for
each frame.  The script declares how many channels it reads and writes; further output
channels are silent.  A cycle that begins during a drawing pass does not wait for the
machine but lets the block and the MIDI input pass unchanged, and the due work stays due.
-/

namespace EffectHost

/-- The samples of one channel. -/
abbrev Channel := Array Float

namespace Channel

/-- Replace the first frames by those of another channel, as far as it goes. -/
def copied (frames : Nat) (source target : Channel) : Channel :=
  target.mapIdx fun frame old => if frame < frames then source.getD frame old else old

/-- Silence the first frames. -/
def silenced (frames : Nat) (target : Channel) : Channel :=
  target.mapIdx fun frame old => if frame < frames then 0.0 else old

/-- Let the first channels pass and silence the others. -/
def passed (count frames : Nat) (inputs outputs : List Channel) : List Channel :=
  outputs.mapIdx fun channel output =>
    if channel < count then copied frames (inputs.getD channel #[]) output
    else silenced frames output

end Channel

/-- The precision of the samples that the host handles. -/
inductive Precision where
  | single
  | double
deriving DecidableEq, Repr

/-- Round a sample. -/
def Precision.round : Precision → Float → Float
  | .single, value => Number.roundToSingle value
  | .double, value => value

/-- How many channels take part in a cycle. -/
structure ChannelPlan where
  /-- Input channels that the script declares and the host provides. -/
  inputs : Nat
  /-- Output channels that the script declares and the host provides. -/
  outputs : Nat
  /-- Input channels that the script declares. -/
  declaredInputs : Nat
deriving DecidableEq, Repr

/-- The plan for a header and the channels of the host. -/
def ChannelPlan.of (header : Header) (inputs outputs : List Channel) : ChannelPlan where
  inputs := min inputs.length header.inPins.count
  outputs := min outputs.length header.outPins.count
  declaredInputs := min header.inPins.count channelVariables

/-- The sample that the script finds in a channel before a frame. -/
def ChannelPlan.sampleAt (plan : ChannelPlan) (inputs : List Channel) (channel frame : Nat) :
    Float :=
  if channel < plan.inputs then (inputs.getD channel #[]).getD frame 0.0 else 0.0

namespace Effect

variable {σ : Type}

/-! ## Before the block -/

/-- What happens in every cycle: the events and changes of the last one are dropped, the
input is read from its beginning, and the script is told the raised triggers. -/
def beginCycle (effect : Effect σ) : Effect σ where
  store := effect.store.write .trigger effect.rig.pending.triggers.toFloat
  around := { effect.around with
    input := effect.around.input.rewind
    output := effect.around.output.clear
    masks := { effect.around.masks with changed := Mask.empty } }
  rig := { effect.rig with pending := { effect.rig.pending with triggers := Mask.empty } }

/-- Drop the MIDI input. -/
def clearInput (effect : Effect σ) : Effect σ :=
  { effect with around := { effect.around with input := effect.around.input.clear } }

/-- What the first init after compiling sets up. -/
def prepareFresh (effect : Effect σ) : Effect σ :=
  { effect with
    store := effect.store.writeAll
      [ (.blockSize, Float.ofNat effect.rig.blockSize), (.delay, 0.0), (.delayBottom, 0.0),
        (.delayTop, 0.0), (.delayMidi, 0.0) ]
    around := { effect.around with
      masks := { visible := SliderMasks.initiallyVisible effect.header } } }

/-- What is set up in front of every init.  It begins without open files. -/
def startInit (effect : Effect σ) : Effect σ :=
  let prepared := if effect.rig.pending.isFresh then effect.prepareFresh else effect
  { prepared with
    store := prepared.store.write .sampleRate prepared.rig.sampleRate
    around := { prepared.around with files := prepared.around.files.clear } }

/-- Run the init programs. -/
def runInitPrograms (effect : Effect σ) : Effect σ :=
  effect.initPrograms.foldl (fun effect program => effect.run cycleCaller program) effect

/-- Note that the init sections have run.  The slider section and a fresh drawing pass
follow. -/
def noteInit (effect : Effect σ) : Effect σ :=
  let noted := effect.updatePending fun pending =>
    { pending with isFresh := false, init := false, slider := true }
  noted.updateDrawing fun drawing => drawing.requestInit (0.0 < noted.store.read .gfxRetina)

/-- Run the init sections of a known script. -/
def runKnownInit (effect : Effect σ) : Effect σ :=
  effect.startInit.runInitPrograms.noteInit

/-- Run the init sections, if what there is to know of the script is at hand. -/
def runInit (effect : Effect σ) : Effect σ :=
  if effect.hasInfo then effect.runKnownInit else effect

/-- Run the init sections if they are due. -/
def runDueInit (effect : Effect σ) : Effect σ :=
  if effect.rig.pending.init then effect.runInit else effect

/-- Take notice of sliders that were moved on the drawing side. -/
def noteMoves (effect : Effect σ) : Effect σ :=
  effect.updatePending fun pending =>
    { pending with slider := pending.slider || pending.sliderMoved, sliderMoved := false }

/-- Run the slider section if it is due. -/
def runDueSlider (effect : Effect σ) : Effect σ :=
  let done :=
    if effect.rig.pending.slider then effect.runSection cycleCaller .slider else effect
  done.updatePending fun pending => { pending with slider := false }

/-! ## The frames of a block -/

/-- Put the input samples of a frame into the script's variables. -/
def feedFrame (plan : ChannelPlan) (inputs : List Channel) (frame : Nat) (store : Store) :
    Store :=
  ((List.finRange channelVariables).take plan.declaredInputs).foldl (fun store channel =>
    store.write (.channel channel) (plan.sampleAt inputs channel frame)) store

/-- The output samples of a frame. -/
def outputFrame (plan : ChannelPlan) (precision : Precision) (store : Store) : Array Float :=
  (((List.finRange channelVariables).take plan.outputs).map fun channel =>
    precision.round (store.read (.channel channel))).toArray

/-- Run the sample section over the frames of a block.  The result has the output samples
of each frame. -/
def runFrames (host : CodeHost Surroundings) (program : Program) (plan : ChannelPlan)
    (precision : Precision) (inputs : List Channel) (frames : Nat)
    (state : Store × Surroundings) : Array (Array Float) × Store × Surroundings :=
  (List.range frames).foldl (fun (rows, store, around) frame =>
    let (store, around) := Code.run host program (feedFrame plan inputs frame store, around)
    (rows.push (outputFrame plan precision store), store, around)) (#[], state)

/-- Put the samples of frames into the output channels. -/
def collect (plan : ChannelPlan) (rows : Array (Array Float)) (outputs : List Channel) :
    List Channel :=
  outputs.mapIdx fun channel output =>
    if channel < plan.outputs then
      output.mapIdx fun frame old =>
        match rows[frame]? with
        | some row => row.getD channel old
        | none => old
    else Channel.silenced rows.size output

/-- Run the sample section over a block, or let the block pass if there is none. -/
def runBlock (effect : Effect σ) (plan : ChannelPlan) (precision : Precision)
    (inputs outputs : List Channel) (frames : Nat) : List Channel × Effect σ :=
  match effect.program? .sample with
  | some program =>
    let (rows, store, around) := runFrames (effect.codeHost cycleCaller) program plan
      precision inputs frames (effect.store, effect.around)
    (collect plan rows outputs, { effect with store := store, around := around })
  | none => (Channel.passed (min plan.outputs plan.inputs) frames inputs outputs, effect)

/-! ## Cycles -/

/-- Tell the script the size of the block and how many channels it reads. -/
def tellCycle (effect : Effect σ) (plan : ChannelPlan) (frames : Nat) : Effect σ :=
  { effect with
    store := effect.store.writeAll
      [(.blockSize, Float.ofNat frames), (.channelCount, Float.ofNat plan.inputs)] }

/-- The sections of a cycle behind the init sections. -/
def runCycle (effect : Effect σ) (precision : Precision) (inputs outputs : List Channel)
    (frames : Nat) : List Channel × Effect σ :=
  let plan := ChannelPlan.of effect.header inputs outputs
  let begun := (effect.tellCycle plan frames).runDueSlider.runSection cycleCaller .block
  let done := begun.runBlock plan precision inputs outputs frames
  (done.1, done.2.clearInput)

/-- A cycle with the machine free.  It ends early if nothing is known of the script. -/
def execute (effect : Effect σ) (precision : Precision) (inputs outputs : List Channel)
    (frames : Nat) : List Channel × Effect σ :=
  let ready := effect.runDueInit.noteMoves
  if ready.hasInfo then ready.runCycle precision inputs outputs frames else (outputs, ready)

/-- A cycle during a drawing pass.  The triggers stay raised. -/
def bypass (effect : Effect σ) (triggers : Mask) (inputs outputs : List Channel)
    (frames : Nat) : List Channel × Effect σ :=
  let plan := ChannelPlan.of effect.header inputs outputs
  let around := effect.around
  let kept := { effect with
    around := { around with
      output := around.output.pushAll around.input.events
      input := around.input.clear } }
  (Channel.passed (min plan.inputs plan.outputs) frames inputs outputs,
    kept.updatePending fun pending => { pending with triggers := pending.triggers.union triggers })

/-- Run one cycle.  The result has the output channels. -/
def process (effect : Effect σ) (precision : Precision) (inputs outputs : List Channel)
    (frames : Nat) : List Channel × Effect σ :=
  let begun := effect.beginCycle
  if !begun.isCompiled then (outputs.map (Channel.silenced frames), begun.clearInput)
  else if begun.rig.drawing.isBusy then
    begun.bypass effect.rig.pending.triggers inputs outputs frames
  else begun.execute precision inputs outputs frames

end Effect
end EffectHost

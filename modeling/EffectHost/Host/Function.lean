import EffectHost.Host.FileFunctions
import EffectHost.Host.MidiFunctions
import EffectHost.Host.SliderFunctions

/-!
# Host functions

The functions that every host provides to scripts, by name.  A function that belongs to
the other role, or for which its caller lacks the means, returns zero and changes nothing.
-/

namespace EffectHost

/-- A function that a script may call. -/
inductive HostFunction where
  | sliderChange
  | sliderAutomate
  | sliderShow
  | midiSend
  | midiSendMemory
  | midiSendText
  | midiSendExclusive
  | midiReceive
  | midiReceiveMemory
  | midiReceiveText
  | fileOpen
  | fileClose
  | fileRewind
  | fileValue
  | fileBlock
  | fileAvailable
  | fileAudioShape
  | fileIsText
  | fileString
  | nextKey
deriving DecidableEq, Repr

namespace HostFunction

/-- The functions and their names. -/
def named : List (HostFunction × String) :=
  [ (.sliderChange, "sliderchange"), (.sliderAutomate, "slider_automate"),
    (.sliderShow, "slider_show"), (.midiSend, "midisend"), (.midiSendMemory, "midisend_buf"),
    (.midiSendText, "midisend_str"), (.midiSendExclusive, "midisyx"),
    (.midiReceive, "midirecv"), (.midiReceiveMemory, "midirecv_buf"),
    (.midiReceiveText, "midirecv_str"), (.fileOpen, "file_open"),
    (.fileClose, "file_close"), (.fileRewind, "file_rewind"), (.fileValue, "file_var"),
    (.fileBlock, "file_mem"), (.fileAvailable, "file_avail"), (.fileAudioShape, "file_riff"),
    (.fileIsText, "file_text"), (.fileString, "file_string"), (.nextKey, "gfx_getchar") ]

/-- The function of a name. -/
def ofName? (name : String) : Option HostFunction :=
  (named.find? (fun entry => entry.2 == name)).map Prod.fst

/-- The beginning of the names of drawing functions. -/
def drawingPrefix : String := "gfx_"

/-- The name is that of a drawing function. -/
def isDrawingName (name : String) : Bool :=
  drawingPrefix.toList.isPrefixOf name.toList

/-- Everything that a function can change. -/
abbrev State := Store × Surroundings

/-- Send a message. -/
def send (caller : Caller) (sender : Store → MidiLog → List Arg → Float × MidiLog)
    (args : List Arg) (state : State) : Float × State :=
  if caller.mayUseMidi then
    let sent := sender state.1 state.2.output args
    (sent.1, state.1, { state.2 with output := sent.2 })
  else (0.0, state)

/-- Receive a message. -/
def receive (caller : Caller) (accept? : Option MidiFunctions.Acceptance) (state : State) :
    Float × State :=
  match accept? with
  | none => (0.0, state)
  | some accept =>
    if caller.mayUseMidi then
      let (result, store, input, output) :=
        MidiFunctions.receiveFrom accept (MidiFunctions.isExtended state.1) state.1
          state.2.input state.2.output
      (result, store, { state.2 with input := input, output := output })
    else (0.0, state)

/-- Run a function that changes sliders' masks. -/
def onMasks (operation : SliderMasks → Float × SliderMasks) (state : State) : Float × State :=
  let done := operation state.2.masks
  (done.1, state.1, { state.2 with masks := done.2 })

/-- Run a function that changes the open files. -/
def onFiles (operation : FileTable → Float × FileTable) (state : State) : Float × State :=
  let done := operation state.2.files
  (done.1, state.1, { state.2 with files := done.2 })

/-- Run a function that changes the open files and the store. -/
def onFilesAndStore (operation : Store → FileTable → Float × Store × FileTable)
    (state : State) : Float × State :=
  let done := operation state.1 state.2.files
  (done.1, done.2.1, { state.2 with files := done.2.2 })

/-- Take a waiting key press, or tell whether a key is down. -/
def key (caller : Caller) (args : List Arg) (state : State) : Float × State :=
  if caller.mayUseKeyboard then
    let wanted := argValue args 0
    if wanted ≤ 0.0 then
      let next := state.2.keyboard.next
      (Float.ofNat next.1, state.1, { state.2 with keyboard := next.2 })
    else (if state.2.keyboard.isDown (Number.toNatural32 wanted) then 1.0 else 0.0, state)
  else (0.0, state)

/-- Run a function. -/
def run (facts : Facts) (caller : Caller) (function : HostFunction) (args : List Arg)
    (state : State) : Float × State :=
  match function with
  | .sliderChange => onMasks (fun masks => (0.0, SliderFunctions.change masks args)) state
  | .sliderAutomate => onMasks (fun masks => (0.0, SliderFunctions.automate masks args)) state
  | .sliderShow => onMasks (fun masks => SliderFunctions.reveal masks args) state
  | .midiSend => send caller MidiFunctions.sendShort args state
  | .midiSendMemory => send caller MidiFunctions.sendMemory args state
  | .midiSendText => send caller MidiFunctions.sendText args state
  | .midiSendExclusive => send caller MidiFunctions.sendExclusive args state
  | .midiReceive => receive caller (some (MidiFunctions.acceptShort args)) state
  | .midiReceiveMemory => receive caller (MidiFunctions.memoryAcceptance? args) state
  | .midiReceiveText =>
    receive caller (some (MidiFunctions.acceptText args (argValue args 1))) state
  | .fileOpen => onFiles (FileFunctions.openFile facts args state.1) state
  | .fileClose => onFiles (FileFunctions.close args) state
  | .fileRewind => onFiles (FileFunctions.rewind args) state
  | .fileValue => onFilesAndStore (FileFunctions.value args) state
  | .fileBlock => onFilesAndStore (FileFunctions.block args) state
  | .fileAvailable => (FileFunctions.available args state.2.files, state)
  | .fileAudioShape =>
    let told := FileFunctions.audioShape args state.1 state.2.files
    (told.1, told.2, state.2)
  | .fileIsText => (FileFunctions.isText args state.2.files, state)
  | .fileString => onFilesAndStore (FileFunctions.string args) state
  | .nextKey => key caller args state

/-- Call a function by name where nothing can be drawn.  Drawing functions are known there
but do nothing. -/
def call (facts : Facts) (caller : Caller) (name : String) (args : List Arg)
    (state : State) : Option Float × State :=
  match ofName? name with
  | some function =>
    let done := function.run facts caller args state
    (some done.1, done.2)
  | none => (if isDrawingName name then some 0.0 else none, state)

end HostFunction
end EffectHost

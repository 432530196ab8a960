import EffectHost.Host.Function
import EffectHost.Proofs.Midi.Push

/-!
# What running code leaves alone

Code writes to variables, to memory and to strings, and calls host functions.  Whatever it
does, it makes no cells, it does not move the end of the memory, it queues no MIDI event,
and it does not take from the output the right to grow.  The frame of a step is what the
states before and after it have in common; frames of steps compose into the frame of a
program.
-/

namespace EffectHost

open MidiFunctions

/-! ## The store -/

namespace Store

/-- Two stores have as many cells and as much memory. -/
structure SameShape (before after : Store) : Prop where
  cells : after.cells.size = before.cells.size
  limit : after.memory.limit = before.memory.limit

namespace SameShape

theorem refl (store : Store) : SameShape store store :=
  ⟨rfl, rfl⟩

theorem trans {first second third : Store} (left : SameShape first second)
    (right : SameShape second third) : SameShape first third :=
  ⟨right.cells.trans left.cells, right.limit.trans left.limit⟩

end SameShape

theorem sameShape_set (store : Store) (cell : Cell) (value : Float) :
    SameShape store (store.set cell value) :=
  ⟨Array.size_setIfInBounds, rfl⟩

theorem sameShape_writeAll (store : Store) (values : List (HostVariable × Float)) :
    SameShape store (store.writeAll values) := by
  induction values generalizing store with
  | nil => exact SameShape.refl store
  | cons entry others ih => exact (sameShape_set store _ _).trans (ih _)

theorem limit_write (memory : Memory) (address : Nat) (value : Float) :
    (memory.write address value).limit = memory.limit := by
  rw [Memory.write]
  split <;> rfl

theorem sameShape_writeItem (store : Store) (position value : Float) :
    SameShape store (store.writeItem position value) := by
  rw [writeItem]
  split
  · exact ⟨rfl, limit_write _ _ _⟩
  · exact SameShape.refl store

theorem sameShape_writeRange (store : Store) (address : Nat) (values : Array Float) :
    SameShape store (store.writeRange address values).2 := by
  have kept : ∀ (stored : List Float) (state : Nat × Memory),
      (stored.foldl (fun state value => (state.1 + 1, state.2.write state.1 value))
        state).2.limit = state.2.limit := by
    intro stored
    induction stored with
    | nil => exact fun _ => rfl
    | cons value others ih => exact fun state => (ih _).trans (limit_write _ _ _)
  exact ⟨rfl, kept _ (address, store.memory)⟩

theorem sameShape_setString (store : Store) (id : Float) (text : String) :
    SameShape store (store.setString id text).2 := by
  rw [setString]
  split <;> exact ⟨rfl, rfl⟩

theorem sameShape_assign (store : Store) (arg : Arg) (value : Float) :
    SameShape store (arg.assign store value) := by
  rw [Arg.assign]
  split
  · exact sameShape_set store _ value
  · exact SameShape.refl store

theorem sameShape_assignArg (store : Store) (args : List Arg) (position : Nat)
    (value : Float) : SameShape store (assignArg args position store value) := by
  rw [assignArg]
  split
  · exact sameShape_assign store _ value
  · exact SameShape.refl store

end Store

/-! ## MIDI logs -/

namespace MidiLog

theorem extensible_push (log : MidiLog) (event : MidiEvent) :
    (log.push event).2.extensible = log.extensible := by
  cases accepted : log.accepts event with
  | true =>
      rw [push_of_accepts accepted]
      exact (limits_append log event).1
  | false => rw [push_of_not_accepts accepted]

theorem extensible_pushAll (log : MidiLog) (events : List MidiEvent) :
    (log.pushAll events).extensible = log.extensible := by
  induction events generalizing log with
  | nil => rfl
  | cons event others ih => exact (ih _).trans (extensible_push log event)

theorem extensible_pushPieces (log : MidiLog) (bus offset : UInt32)
    (pieces : List ByteArray) :
    (log.pushPieces bus offset pieces).2.extensible = log.extensible := by
  rw [pushPieces_eq_push]
  exact extensible_push log _

end MidiLog

/-! ## Host functions -/

namespace HostFunction

open Store

/-- What a step of running code leaves alone. -/
structure Frame (before after : State) : Prop where
  shape : SameShape before.1 after.1
  queued : after.2.input.bytes = before.2.input.bytes
  output : after.2.output.extensible = before.2.output.extensible

namespace Frame

theorem refl (state : State) : Frame state state :=
  ⟨SameShape.refl _, rfl, rfl⟩

theorem trans {first second third : State} (left : Frame first second)
    (right : Frame second third) : Frame first third :=
  ⟨left.shape.trans right.shape, right.queued.trans left.queued,
    right.output.trans left.output⟩

theorem of_shape {store changed : Store} (shape : SameShape store changed)
    (around : Surroundings) : Frame (store, around) (changed, around) :=
  ⟨shape, rfl, rfl⟩

end Frame

/-- A message that is taken changes no more of the store than its shape allows. -/
def ShapeKept (accept : Acceptance) : Prop :=
  ∀ (event : MidiEvent) (store taken : Store) (result : Float),
    accept event store = some (result, taken) → SameShape store taken

theorem shapeKept_acceptShort (args : List Arg) : ShapeKept (acceptShort args) := by
  intro event store taken result accepted
  rw [acceptShort] at accepted
  split at accepted
  · cases accepted
  · cases accepted
    have begun := (sameShape_assignArg store args 0 (Float.ofNat event.offset.toNat)).trans
      (sameShape_assignArg _ args 1 (Float.ofNat (messageByte event 0)))
    split
    · exact (begun.trans (sameShape_assignArg _ args 2 _)).trans
        (sameShape_assignArg _ args 3 _)
    · exact begun.trans (sameShape_assignArg _ args 2 _)

theorem shapeKept_acceptMemory (args : List Arg) (address most : Nat) :
    ShapeKept (acceptMemory args address most) := by
  intro event store taken result accepted
  rw [acceptMemory] at accepted
  split at accepted
  · cases accepted
  · cases accepted
    exact (sameShape_writeRange store address _).trans (sameShape_assignArg _ args 0 _)

theorem shapeKept_acceptText (args : List Arg) (id : Float) :
    ShapeKept (acceptText args id) := by
  intro event store taken result accepted
  simp only [acceptText] at accepted
  split at accepted
  · cases accepted
    exact (sameShape_setString store id _).trans (sameShape_assignArg _ args 0 _)
  · cases accepted

theorem shapeKept_memoryAcceptance? {args : List Arg} {accept : Acceptance}
    (allowed : memoryAcceptance? args = some accept) : ShapeKept accept := by
  rw [memoryAcceptance?] at allowed
  split at allowed
  · cases allowed
  · cases allowed
    exact shapeKept_acceptMemory args _ _

/-- Looking for an event moves the cursors of the input and forwards to the output. -/
theorem frame_receiveFrom {accept : Acceptance} (kept : ShapeKept accept) (allBuses : Bool)
    (store : Store) (input output : MidiLog) :
    let found := receiveFrom accept allBuses store input output
    SameShape store found.2.1 ∧ found.2.2.1.bytes = input.bytes ∧
      found.2.2.2.extensible = output.extensible := by
  fun_induction receiveFrom accept allBuses store input output with
  | case1 => exact ⟨SameShape.refl _, rfl, rfl⟩
  | case2 input output event rest read result taken accepted told =>
      refine ⟨?_, (MidiLog.take?_advances read).1, rfl⟩
      have stored := kept event store taken result accepted
      dsimp only [told]
      split
      · exact stored.trans (sameShape_set taken _ _)
      · exact stored
  | case3 input output event rest read _ ih =>
      exact ⟨ih.1, ih.2.1.trans (MidiLog.take?_advances read).1,
        ih.2.2.trans (MidiLog.extensible_push output event)⟩

theorem frame_receive {accept? : Option Acceptance}
    (kept : ∀ accept, accept? = some accept → ShapeKept accept) (caller : Caller)
    (state : State) : Frame state (receive caller accept? state).2 := by
  cases accept? with
  | none => exact Frame.refl state
  | some accept =>
      rw [receive.eq_def]
      dsimp only
      split
      · have found := frame_receiveFrom (kept accept rfl) (isExtended state.1) state.1
          state.2.input state.2.output
        exact ⟨found.1, found.2.1, found.2.2⟩
      · exact Frame.refl state

theorem frame_send {sender : Store → MidiLog → List Arg → Float × MidiLog}
    (kept : ∀ (store : Store) (log : MidiLog) (args : List Arg),
      (sender store log args).2.extensible = log.extensible)
    (caller : Caller) (args : List Arg) (state : State) :
    Frame state (send caller sender args state).2 := by
  rw [send]
  split
  · exact ⟨SameShape.refl _, rfl, kept _ _ _⟩
  · exact Frame.refl state

theorem extensible_sendMemory (store : Store) (output : MidiLog) (args : List Arg) :
    (sendMemory store output args).2.extensible = output.extensible := by
  rw [sendMemory]
  split
  · exact MidiLog.extensible_push output _
  · rfl

theorem extensible_sendText (store : Store) (output : MidiLog) (args : List Arg) :
    (sendText store output args).2.extensible = output.extensible := by
  rw [sendText]
  split
  · exact MidiLog.extensible_push output _
  · rfl

theorem extensible_sendExclusive (store : Store) (output : MidiLog) (args : List Arg) :
    (sendExclusive store output args).2.extensible = output.extensible := by
  rw [sendExclusive]
  split
  · exact MidiLog.extensible_pushPieces output _ _ _
  · rfl

/-- What an operation on an open file leaves of the store. -/
theorem sameShape_withFile {α : Type} {store : Store} {files : FileTable} {handle : Int}
    {operation : OpenFile → (α × Store) × OpenFile}
    (kept : ∀ file, SameShape store (operation file).1.2) {moved : α × Store}
    (done : (files.withFile handle operation).1 = some moved) : SameShape store moved.2 := by
  rw [FileTable.withFile] at done
  cases found : files.get? handle with
  | none =>
      rw [found] at done
      cases done
  | some file =>
      rw [found] at done
      cases done
      exact kept file

theorem sameShape_value (args : List Arg) (store : Store) (files : FileTable) :
    SameShape store (FileFunctions.value args store files).2.1 := by
  rw [FileFunctions.value]
  split
  · exact SameShape.refl store
  · dsimp only
    split
    · next done =>
        refine sameShape_withFile ?_ done
        intro file
        split
        · exact SameShape.refl store
        · split
          · exact sameShape_assign store _ _
          · exact SameShape.refl store
    · exact SameShape.refl store

theorem sameShape_readBlocks (left address : Nat) (store : Store) (file : OpenFile) :
    SameShape store (FileFunctions.readBlocks left address store file).2.1 := by
  fun_induction FileFunctions.readBlocks left address store file with
  | case1 => exact SameShape.refl _
  | case2 left address store file _ wanted read stored short =>
      exact sameShape_writeRange store address read.1
  | case3 left address store file _ wanted read stored _ more ih =>
      exact (sameShape_writeRange store address read.1).trans ih

theorem sameShape_block (args : List Arg) (store : Store) (files : FileTable) :
    SameShape store (FileFunctions.block args store files).2.1 := by
  rw [FileFunctions.block]
  dsimp only
  split
  · exact SameShape.refl store
  · split
    · next done =>
        refine sameShape_withFile ?_ done
        intro file
        split
        · exact SameShape.refl store
        · exact sameShape_readBlocks _ _ store file
    · exact SameShape.refl store

theorem sameShape_string (args : List Arg) (store : Store) (files : FileTable) :
    SameShape store (FileFunctions.string args store files).2.1 := by
  rw [FileFunctions.string]
  dsimp only
  split
  · next done =>
      refine sameShape_withFile ?_ done
      intro file
      split
      · exact SameShape.refl store
      · split
        · exact sameShape_setString store _ _
        · exact SameShape.refl store
  · exact SameShape.refl store

theorem sameShape_audioShape (args : List Arg) (store : Store) (files : FileTable) :
    SameShape store (FileFunctions.audioShape args store files).2 := by
  rw [FileFunctions.audioShape]
  split
  · exact SameShape.refl store
  · exact (sameShape_assignArg store args 1 _).trans (sameShape_assignArg _ args 2 _)

/-- Every host function stays within its frame. -/
theorem frame_run (facts : Facts) (caller : Caller) (function : HostFunction)
    (args : List Arg) (state : State) :
    Frame state (function.run facts caller args state).2 := by
  have onFile {operation : Store → FileTable → Float × Store × FileTable}
      (kept : ∀ files, SameShape state.1 (operation state.1 files).2.1) :
      Frame state (onFilesAndStore operation state).2 :=
    ⟨kept state.2.files, rfl, rfl⟩
  cases function with
  | sliderChange | sliderAutomate | sliderShow | fileOpen | fileClose | fileRewind =>
      exact ⟨SameShape.refl _, rfl, rfl⟩
  | fileAvailable | fileIsText => exact Frame.refl state
  | midiSend => exact frame_send (fun _ log _ => MidiLog.extensible_push log _) caller args state
  | midiSendMemory => exact frame_send extensible_sendMemory caller args state
  | midiSendText => exact frame_send extensible_sendText caller args state
  | midiSendExclusive => exact frame_send extensible_sendExclusive caller args state
  | midiReceive =>
      refine frame_receive ?_ caller state
      intro accept same
      cases same
      exact shapeKept_acceptShort args
  | midiReceiveMemory =>
      exact frame_receive (fun _ => shapeKept_memoryAcceptance?) caller state
  | midiReceiveText =>
      refine frame_receive ?_ caller state
      intro accept same
      cases same
      exact shapeKept_acceptText args _
  | fileValue => exact onFile (sameShape_value args state.1)
  | fileBlock => exact onFile (sameShape_block args state.1)
  | fileString => exact onFile (sameShape_string args state.1)
  | fileAudioShape => exact ⟨sameShape_audioShape args state.1 state.2.files, rfl, rfl⟩
  | nextKey =>
      rw [run, key]
      dsimp only
      split
      · split
        · exact ⟨SameShape.refl _, rfl, rfl⟩
        · exact Frame.refl state
      · exact Frame.refl state

theorem frame_call (facts : Facts) (caller : Caller) (name : String) (args : List Arg)
    (state : State) : Frame state (call facts caller name args state).2 := by
  rw [call]
  split
  · exact frame_run facts caller _ args state
  · exact Frame.refl state

end HostFunction
end EffectHost

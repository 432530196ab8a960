import EffectHost.Proofs.Code.Agreement
import EffectHost.Proofs.Host.Blocks
import EffectHost.Proofs.Host.Frame
import EffectHost.Proofs.Host.Variables
import EffectHost.Proofs.Midi.Forward

/-!
# What code cannot tell apart

Every cycle tells the script the number of its frames, of its input channels and its
triggers.  Code that does not look at these three variables cannot tell two states apart
that differ only there, in the events that were sent, or in the changes that were
announced, provided that no event waits and that the output can grow.  Each host function
gives the same result in both and leaves them alike.
-/

namespace EffectHost

open MidiFunctions

/-- The variables by which a cycle tells the script about itself. -/
def HostVariable.ofCycle : List HostVariable :=
  [.blockSize, .trigger, .channelCount]

/-- The cell is none of those that every cycle sets. -/
def Cell.Lasting (cell : Cell) : Prop :=
  ∀ name ∈ HostVariable.ofCycle, cell ≠ name.cell

instance (cell : Cell) : Decidable cell.Lasting :=
  inferInstanceAs (Decidable (∀ name ∈ HostVariable.ofCycle, cell ≠ name.cell))

instance (program : Program) : Decidable (program.Within Cell.Lasting) :=
  inferInstanceAs (Decidable (∀ cell ∈ Code.variablesOfAll program, cell.Lasting))

theorem HostVariable.lasting_cell {name : HostVariable} (other : name ∉ ofCycle) :
    name.cell.Lasting := by
  intro told member same
  rw [cell_injective same] at other
  exact other member

namespace Store

theorem writeAll_cons (store : Store) (entry : HostVariable × Float)
    (others : List (HostVariable × Float)) :
    store.writeAll (entry :: others) = (store.write entry.1 entry.2).writeAll others :=
  rfl

/-- Two stores differ at most in what a cycle tells about itself. -/
structure Alike (first second : Store) : Prop where
  cells : ∀ cell, Cell.Lasting cell → first.get cell = second.get cell
  size : first.cells.size = second.cells.size
  memory : first.memory = second.memory
  strings : first.strings = second.strings

namespace Alike

variable {first second third : Store}

theorem refl (store : Store) : Alike store store :=
  ⟨fun _ _ => rfl, rfl, rfl, rfl⟩

theorem symm (alike : Alike first second) : Alike second first :=
  ⟨fun cell lasting => (alike.cells cell lasting).symm, alike.size.symm, alike.memory.symm,
    alike.strings.symm⟩

theorem trans (left : Alike first second) (right : Alike second third) :
    Alike first third where
  cells := fun cell lasting => (left.cells cell lasting).trans (right.cells cell lasting)
  size := left.size.trans right.size
  memory := left.memory.trans right.memory
  strings := left.strings.trans right.strings

theorem read (alike : Alike first second) {name : HostVariable}
    (other : name ∉ HostVariable.ofCycle) : first.read name = second.read name :=
  alike.cells name.cell (HostVariable.lasting_cell other)

theorem set (alike : Alike first second) (cell : Cell) (value : Float) :
    Alike (first.set cell value) (second.set cell value) := by
  have sizes : (first.set cell value).cells.size = (second.set cell value).cells.size := by
    simp [Store.set, alike.size]
  refine ⟨?_, sizes, alike.memory, alike.strings⟩
  intro other lasting
  by_cases same : cell = other
  · subst same
    by_cases inside : cell.index < first.cells.size
    · rw [get_set_self inside, get_set_self (alike.size ▸ inside)]
    · have outside : ¬ cell.index < second.cells.size := alike.size ▸ inside
      simp [Store.get, Store.set, inside, outside]
  · rw [get_set_of_ne _ same, get_set_of_ne _ same]
    exact alike.cells other lasting

/-- What a cycle tells about itself does not matter. -/
theorem told (alike : Alike first second) {name : HostVariable}
    (told : name ∈ HostVariable.ofCycle) (value : Float) :
    Alike first (second.write name value) := by
  have size : first.cells.size = (second.write name value).cells.size := by
    simp [Store.write, Store.set, alike.size]
  refine ⟨?_, size, alike.memory, alike.strings⟩
  intro cell lasting
  have apart : name.cell ≠ cell := (lasting name told).symm
  rw [Store.write, get_set_of_ne _ apart]
  exact alike.cells cell lasting

theorem tellBoth (alike : Alike first second) {name : HostVariable}
    (told : name ∈ HostVariable.ofCycle) (early late : Float) :
    Alike (first.write name early) (second.write name late) :=
  ((alike.symm.told told early).symm).told told late

theorem writeAll (alike : Alike first second) (values : List (HostVariable × Float)) :
    Alike (first.writeAll values) (second.writeAll values) := by
  induction values generalizing first second with
  | nil => exact alike
  | cons entry others ih => exact ih (alike.set entry.1.cell entry.2)

theorem readItem (alike : Alike first second) (position : Float) :
    first.readItem position = second.readItem position := by
  rw [Store.readItem, Store.readItem, alike.memory]

theorem writeItem (alike : Alike first second) (position value : Float) :
    Alike (first.writeItem position value) (second.writeItem position value) := by
  rw [Store.writeItem, Store.writeItem]
  cases Memory.writeAddress? position with
  | none => exact alike
  | some address =>
      exact ⟨alike.cells, alike.size, congrArg (Memory.write · address value) alike.memory,
        alike.strings⟩

theorem writeRange (alike : Alike first second) (address : Nat) (values : Array Float) :
    (first.writeRange address values).1 = (second.writeRange address values).1 ∧
      Alike (first.writeRange address values).2 (second.writeRange address values).2 := by
  have stored : first.memory.writeRange address values =
      second.memory.writeRange address values := by
    rw [alike.memory]
  have count : (first.memory.writeRange address values).1 =
      (second.memory.writeRange address values).1 := congrArg Prod.fst stored
  exact ⟨count, alike.cells, alike.size, congrArg Prod.snd stored, alike.strings⟩

theorem setString (alike : Alike first second) (id : Float) (text : String) :
    (first.setString id text).1 = (second.setString id text).1 ∧
      Alike (first.setString id text).2 (second.setString id text).2 := by
  rw [Store.setString, Store.setString, alike.strings]
  cases second.strings.set? id text with
  | none => exact ⟨rfl, alike⟩
  | some strings => exact ⟨rfl, alike.cells, alike.size, alike.memory, rfl⟩

theorem assign (alike : Alike first second) (arg : Arg) (value : Float) :
    Alike (arg.assign first value) (arg.assign second value) := by
  rw [Arg.assign, Arg.assign]
  cases arg.cell? with
  | none => exact alike
  | some cell => exact alike.set cell value

theorem assignArg (alike : Alike first second) (args : List Arg) (position : Nat)
    (value : Float) :
    Alike (assignArg args position first value) (assignArg args position second value) := by
  rw [EffectHost.assignArg, EffectHost.assignArg]
  cases args[position]? with
  | none => exact alike
  | some arg => exact alike.assign arg value

end Alike
end Store

/-! ## MIDI -/

namespace MidiLog

/-- A log that can grow takes every valid event. -/
theorem push_fst_of_extensible {log : MidiLog} (grows : log.extensible = true)
    (event : MidiEvent) : (log.push event).1 = event.isValid := by
  rw [push_fst, accepts, hasRoom, grows, Bool.true_or, Bool.and_true]

/-- Nothing is taken from an empty log. -/
theorem take?_of_holds_nil {log : MidiLog} (empty : log.Holds []) (allBuses : Bool) :
    log.take? allBuses = none := by
  have atEnd : ∀ position, log.bytes.data.toList.drop position = [] := by
    intro position
    rw [empty.bytes]
    exact List.drop_nil
  cases allBuses with
  | true =>
      rw [take?, if_pos rfl, next?, eventAt?_of_end (atEnd _)]
      rfl
  | false =>
      rw [take?, if_neg Bool.false_ne_true, nextOnBus?]
      split
      · rw [findOnBus?_eq_none empty.valid (atEnd _) (List.forall_mem_nil _)]
        rfl
      · rfl

end MidiLog

/-! ## Host functions -/

namespace HostFunction

open Store

/-- Two states that code cannot tell apart. -/
structure Alike (first second : State) : Prop where
  store : Store.Alike first.1 second.1
  files : first.2.files = second.2.files
  visible : first.2.masks.visible = second.2.masks.visible
  firstInput : first.2.input.Holds []
  secondInput : second.2.input.Holds []
  firstOutput : first.2.output.extensible = true
  secondOutput : second.2.output.extensible = true

/-- Two runs of a function give the same result and leave states that are alike. -/
def Agree (first second : Float × State) : Prop :=
  first.1 = second.1 ∧ Alike first.2 second.2

namespace Alike

variable {first second third : State}

theorem refl {state : State} (input : state.2.input.Holds [])
    (output : state.2.output.extensible = true) : Alike state state :=
  ⟨Store.Alike.refl state.1, rfl, rfl, input, input, output, output⟩

theorem symm (alike : Alike first second) : Alike second first where
  store := alike.store.symm
  files := alike.files.symm
  visible := alike.visible.symm
  firstInput := alike.secondInput
  secondInput := alike.firstInput
  firstOutput := alike.secondOutput
  secondOutput := alike.firstOutput

theorem trans (left : Alike first second) (right : Alike second third) :
    Alike first third where
  store := left.store.trans right.store
  files := left.files.trans right.files
  visible := left.visible.trans right.visible
  firstInput := left.firstInput
  secondInput := right.secondInput
  firstOutput := left.firstOutput
  secondOutput := right.secondOutput

end Alike

variable {first second : State}

/-- What becomes of the store and of the files decides. -/
theorem Alike.replace (alike : Alike first second) {firstStore secondStore : Store}
    (store : Store.Alike firstStore secondStore) (files : FileTable) :
    Alike (firstStore, { first.2 with files := files })
      (secondStore, { second.2 with files := files }) :=
  ⟨store, rfl, alike.visible, alike.firstInput, alike.secondInput, alike.firstOutput,
    alike.secondOutput⟩

theorem agree_onMasks (alike : Alike first second)
    {operation : SliderMasks → Float × SliderMasks}
    (same : ∀ masks other, masks.visible = other.visible →
      (operation masks).1 = (operation other).1 ∧
        (operation masks).2.visible = (operation other).2.visible) :
    Agree (onMasks operation first) (onMasks operation second) := by
  rcases same _ _ alike.visible with ⟨result, visible⟩
  exact ⟨result, alike.store, alike.files, visible, alike.firstInput, alike.secondInput,
    alike.firstOutput, alike.secondOutput⟩

theorem sendBus_of_alike {store other : Store} (alike : Store.Alike store other) :
    sendBus store = sendBus other := by
  have extended : store.read .extendedMidiBus = other.read .extendedMidiBus :=
    alike.read (by decide)
  have bus : store.read .midiBus = other.read .midiBus := alike.read (by decide)
  rw [sendBus, sendBus, isExtended, isExtended, extended, bus]

/-- A sender tells the same over logs that can grow. -/
def TellsAlike (sender : Store → MidiLog → List Arg → Float × MidiLog) : Prop :=
  ∀ (store other : Store) (log log' : MidiLog) (args : List Arg), Store.Alike store other →
    log.extensible = true → log'.extensible = true →
      (sender store log args).1 = (sender other log' args).1

theorem send_fst_of_alike {store other : Store} {log log' : MidiLog}
    (alike : Store.Alike store other) (grows : log.extensible = true)
    (grows' : log'.extensible = true) (args : List Arg) (message : ByteArray)
    (success : Float) :
    (MidiFunctions.send store log args message success).1 =
      (MidiFunctions.send other log' args message success).1 := by
  simp only [MidiFunctions.send, sendBus_of_alike alike,
    MidiLog.push_fst_of_extensible grows, MidiLog.push_fst_of_extensible grows']

theorem tellsAlike_sendShort : TellsAlike sendShort :=
  fun _ _ _ _ args alike grows grows' => send_fst_of_alike alike grows grows' args _ _

theorem tellsAlike_sendMemory : TellsAlike sendMemory := by
  intro store other log log' args alike grows grows'
  rw [sendMemory, sendMemory, alike.memory]
  split
  · exact send_fst_of_alike alike grows grows' args _ _
  · rfl

theorem tellsAlike_sendText : TellsAlike sendText := by
  intro store other log log' args alike grows grows'
  rw [sendText, sendText, alike.strings]
  split
  · exact send_fst_of_alike alike grows grows' args _ _
  · rfl

theorem tellsAlike_sendExclusive : TellsAlike sendExclusive := by
  intro store other log log' args alike grows grows'
  rw [sendExclusive, sendExclusive, alike.memory]
  split
  · simp only [MidiLog.pushPieces_eq_push, sendBus_of_alike alike,
      MidiLog.push_fst_of_extensible grows, MidiLog.push_fst_of_extensible grows']
  · rfl

theorem agree_send (alike : Alike first second)
    {sender : Store → MidiLog → List Arg → Float × MidiLog} (tells : TellsAlike sender)
    (kept : ∀ (store : Store) (log : MidiLog) (args : List Arg),
      (sender store log args).2.extensible = log.extensible)
    (caller : Caller) (args : List Arg) :
    Agree (send caller sender args first) (send caller sender args second) := by
  rw [send, send]
  split
  · refine ⟨tells _ _ _ _ args alike.store alike.firstOutput alike.secondOutput, ?_⟩
    exact ⟨alike.store, alike.files, alike.visible, alike.firstInput, alike.secondInput,
      (kept _ _ _).trans alike.firstOutput, (kept _ _ _).trans alike.secondOutput⟩
  · exact ⟨rfl, alike⟩

/-- Where no event waits, nothing is received. -/
theorem receive_of_unheard {state : State} (unheard : state.2.input.Holds [])
    (caller : Caller) (accept? : Option Acceptance) :
    receive caller accept? state = (0.0, state) := by
  cases accept? with
  | none => rfl
  | some accept =>
      rw [receive.eq_def]
      dsimp only
      split
      · rw [receiveFrom]
        split
        · rfl
        · next event rest read =>
            rw [MidiLog.take?_of_holds_nil unheard] at read
            cases read
      · rfl

/-! ### Files -/

/-- Two runs of an operation on the same file. -/
def FileAgree {α : Type} (first second : (α × Store) × OpenFile) : Prop :=
  first.1.1 = second.1.1 ∧ Store.Alike first.1.2 second.1.2 ∧ first.2 = second.2

/-- Run an operation on an open file and tell its result. -/
def ofFile {α : Type} (handle : Int) (tell : α → Float)
    (operation : Store → OpenFile → (α × Store) × OpenFile) (store : Store)
    (files : FileTable) : Float × Store × FileTable :=
  let done := files.withFile handle (operation store)
  match done.1 with
  | some (result, store) => (tell result, store, done.2)
  | none => (0.0, store, done.2)

theorem agree_ofFile (alike : Alike first second) {α : Type} (handle : Int)
    (tell : α → Float) {operation : Store → OpenFile → (α × Store) × OpenFile}
    (same : ∀ file, FileAgree (operation first.1 file) (operation second.1 file)) :
    Agree (onFilesAndStore (ofFile handle tell operation) first)
      (onFilesAndStore (ofFile handle tell operation) second) := by
  simp only [onFilesAndStore, ofFile, FileTable.withFile, alike.files]
  cases second.2.files.get? handle with
  | none => exact ⟨rfl, alike.replace alike.store _⟩
  | some file =>
      rcases same file with ⟨result, store, next⟩
      simp only [result, next]
      exact ⟨rfl, alike.replace store _⟩

/-- How the value of an argument is moved between a file and a variable. -/
def moveValue (arg : Arg) (store : Store) (file : OpenFile) : (Bool × Store) × OpenFile :=
  if file.isWriting then
    let written := file.writeValue arg.value
    ((written.1, store), written.2)
  else
    match file.readValue with
    | (some value, next) => ((true, arg.assign store value), next)
    | (none, next) => ((false, store), next)

/-- How a string is moved between a file and the store. -/
def moveString (id : Float) (store : Store) (file : OpenFile) : (Bool × Store) × OpenFile :=
  if file.isWriting then
    let written := file.writeString ((store.strings.find? id).getD "")
    ((written.1, store), written.2)
  else
    match file.readString with
    | (some text, next) => (store.setString id text, next)
    | (none, next) => ((false, store), next)

/-- How a block is moved between a file and memory. -/
def moveBlock (left start : Nat) (store : Store) (file : OpenFile) :
    (Nat × Store) × OpenFile :=
  if file.isWriting then
    let written := FileFunctions.writeBlocks left start store.memory file
    ((written.1, store), written.2)
  else
    let read := FileFunctions.readBlocks left start store file
    ((read.1, read.2.1), read.2.2)

theorem value_eq_ofFile {args : List Arg} {arg : Arg} (named : args[1]? = some arg) :
    FileFunctions.value args =
      ofFile (FileFunctions.handle args) (fun done => if done then 1.0 else 0.0)
        (moveValue arg) := by
  funext store files
  simp only [FileFunctions.value, named, ofFile, FileTable.withFile]
  cases files.get? (FileFunctions.handle args) with
  | none => rfl
  | some file => rfl

theorem string_eq_ofFile (args : List Arg) :
    FileFunctions.string args =
      ofFile (FileFunctions.handle args) (fun done => if done then 1.0 else 0.0)
        (moveString (argValue args 1)) := by
  funext store files
  simp only [FileFunctions.string, ofFile, FileTable.withFile]
  cases files.get? (FileFunctions.handle args) with
  | none => rfl
  | some file => rfl

theorem block_eq_ofFile {args : List Arg}
    (moves : ¬ (argValue args 1 < 0.0 || argValue args 2 ≤ 0.0) = true) :
    FileFunctions.block args =
      ofFile (FileFunctions.handle args) Float.ofNat
        (moveBlock (min (Number.toNatural (argValue args 2)) maxMemorySlots)
          (Number.toNatural (argValue args 1))) := by
  funext store files
  simp only [FileFunctions.block, if_neg moves, ofFile, FileTable.withFile]
  cases files.get? (FileFunctions.handle args) with
  | none => rfl
  | some file => rfl

theorem agree_value (alike : Alike first second) (args : List Arg) :
    Agree (onFilesAndStore (FileFunctions.value args) first)
      (onFilesAndStore (FileFunctions.value args) second) := by
  cases named : args[1]? with
  | none =>
      simp only [onFilesAndStore, FileFunctions.value, named, alike.files]
      exact ⟨rfl, alike.replace alike.store _⟩
  | some arg =>
      rw [value_eq_ofFile named]
      apply agree_ofFile alike
      intro file
      rw [moveValue, moveValue]
      split
      · exact ⟨rfl, alike.store, rfl⟩
      · split
        · exact ⟨rfl, alike.store.assign arg _, rfl⟩
        · exact ⟨rfl, alike.store, rfl⟩

/-- Blocks of one file are read alike. -/
theorem readBlocks_agree (left : Nat) {address : Nat} {store other : Store}
    (alike : Store.Alike store other) (file : OpenFile) :
    let read := FileFunctions.readBlocks left address store file
    let again := FileFunctions.readBlocks left address other file
    read.1 = again.1 ∧ Store.Alike read.2.1 again.2.1 ∧ read.2.2 = again.2.2 := by
  rw [FileFunctions.readBlocks_eq, FileFunctions.readBlocks_eq, alike.memory]
  dsimp only
  rcases alike.writeRange address
    (file.readValues (FileFunctions.asked other.memory left address)).1 with ⟨count, stored⟩
  exact ⟨count, stored, rfl⟩

theorem agree_block (alike : Alike first second) (args : List Arg) :
    Agree (onFilesAndStore (FileFunctions.block args) first)
      (onFilesAndStore (FileFunctions.block args) second) := by
  by_cases nothing : (argValue args 1 < 0.0 || argValue args 2 ≤ 0.0) = true
  · simp only [onFilesAndStore, FileFunctions.block, nothing, if_true, alike.files]
    exact ⟨rfl, alike.replace alike.store _⟩
  · rw [block_eq_ofFile nothing]
    apply agree_ofFile alike
    intro file
    rw [moveBlock, moveBlock]
    split
    · rw [alike.store.memory]
      exact ⟨rfl, alike.store, rfl⟩
    · exact readBlocks_agree _ alike.store file

theorem agree_string (alike : Alike first second) (args : List Arg) :
    Agree (onFilesAndStore (FileFunctions.string args) first)
      (onFilesAndStore (FileFunctions.string args) second) := by
  rw [string_eq_ofFile]
  apply agree_ofFile alike
  intro file
  rw [moveString, moveString]
  split
  · rw [alike.store.strings]
    exact ⟨rfl, alike.store, rfl⟩
  · split
    · rcases alike.store.setString (argValue args 1) _ with ⟨done, stored⟩
      exact ⟨done, stored, rfl⟩
    · exact ⟨rfl, alike.store, rfl⟩

theorem agree_audioShape (alike : Alike first second) (args : List Arg) :
    let told := FileFunctions.audioShape args first.1 first.2.files
    let again := FileFunctions.audioShape args second.1 second.2.files
    told.1 = again.1 ∧ Store.Alike told.2 again.2 := by
  rw [FileFunctions.audioShape, FileFunctions.audioShape, alike.files]
  split
  · exact ⟨rfl, alike.store⟩
  · exact ⟨rfl, (alike.store.assignArg args 1 _).assignArg args 2 _⟩

theorem agree_openFile (alike : Alike first second) (facts : Facts) (args : List Arg) :
    Agree (onFiles (FileFunctions.openFile facts args first.1) first)
      (onFiles (FileFunctions.openFile facts args second.1) second) := by
  have same : FileFunctions.openFile facts args first.1 first.2.files =
      FileFunctions.openFile facts args second.1 second.2.files := by
    rw [FileFunctions.openFile, FileFunctions.openFile, alike.store.strings, alike.files]
  simp only [onFiles, same]
  exact ⟨rfl, alike.replace alike.store _⟩

/-! ### All functions -/

/-- Every host function agrees on states that are alike, unless it listens to keys. -/
theorem agree_run (alike : Alike first second) (facts : Facts) {caller : Caller}
    (deaf : caller.mayUseKeyboard = false) (function : HostFunction) (args : List Arg) :
    Agree (function.run facts caller args first) (function.run facts caller args second) := by
  have onTable (operation : FileTable → Float × FileTable) :
      Agree (onFiles operation first) (onFiles operation second) := by
    simp only [onFiles, alike.files]
    exact ⟨rfl, alike.replace alike.store _⟩
  have unheard (accept? : Option Acceptance) :
      Agree (receive caller accept? first) (receive caller accept? second) := by
    rw [receive_of_unheard alike.firstInput, receive_of_unheard alike.secondInput]
    exact ⟨rfl, alike⟩
  cases function with
  | sliderChange | sliderAutomate => exact agree_onMasks alike fun _ _ same => ⟨rfl, same⟩
  | sliderShow =>
      apply agree_onMasks alike
      intro masks other same
      simp only [SliderFunctions.reveal, same]
      exact ⟨trivial, trivial⟩
  | midiSend =>
      exact agree_send alike tellsAlike_sendShort
        (fun _ log _ => MidiLog.extensible_push log _) caller args
  | midiSendMemory =>
      exact agree_send alike tellsAlike_sendMemory extensible_sendMemory caller args
  | midiSendText => exact agree_send alike tellsAlike_sendText extensible_sendText caller args
  | midiSendExclusive =>
      exact agree_send alike tellsAlike_sendExclusive extensible_sendExclusive caller args
  | midiReceive | midiReceiveMemory | midiReceiveText => exact unheard _
  | fileOpen => exact agree_openFile alike facts args
  | fileClose => exact onTable (FileFunctions.close args)
  | fileRewind => exact onTable (FileFunctions.rewind args)
  | fileValue => exact agree_value alike args
  | fileBlock => exact agree_block alike args
  | fileAvailable => exact ⟨congrArg (FileFunctions.available args) alike.files, alike⟩
  | fileAudioShape =>
      rcases agree_audioShape alike args with ⟨told, store⟩
      exact ⟨told, store, alike.files, alike.visible, alike.firstInput, alike.secondInput,
        alike.firstOutput, alike.secondOutput⟩
  | fileIsText => exact ⟨congrArg (FileFunctions.isText args) alike.files, alike⟩
  | fileString => exact agree_string alike args
  | nextKey =>
      simp only [run, key, deaf, Bool.false_eq_true, if_false]
      exact ⟨rfl, alike⟩

/-- Code with the host functions agrees on states that are alike, if it refers to none of
the variables by which a cycle tells about itself. -/
theorem respects_call (facts : Facts) {caller : Caller}
    (deaf : caller.mayUseKeyboard = false) :
    ({ call := call facts caller } : CodeHost Surroundings).Respects Cell.Lasting Alike where
  get := fun alike lasting => alike.store.cells _ lasting
  readItem := fun position alike => alike.store.readItem position
  set := fun value alike _ =>
    ⟨alike.store.set _ value, alike.files, alike.visible, alike.firstInput,
      alike.secondInput, alike.firstOutput, alike.secondOutput⟩
  writeItem := fun position value alike =>
    ⟨alike.store.writeItem position value, alike.files, alike.visible, alike.firstInput,
      alike.secondInput, alike.firstOutput, alike.secondOutput⟩
  call := by
    intro first second name args alike _
    simp only [call]
    split
    · next function _ =>
        rcases agree_run alike facts deaf function args with ⟨result, states⟩
        exact ⟨congrArg some result, states⟩
    · exact ⟨rfl, alike⟩

end HostFunction
end EffectHost

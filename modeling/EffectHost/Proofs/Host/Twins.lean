import EffectHost.Proofs.Code.Twins
import EffectHost.Proofs.Host.Agreement

/-!
# Host functions in twin stores

A host function does not notice where the cells of its arguments stand.  Called on twin
stores with the same surroundings and with arguments that stand for each other, it gives the
same result and leaves twins with the same surroundings.  The keyboard counts only where
somebody listens to it.
-/

namespace EffectHost

open MidiFunctions

/-! ## Arguments -/

@[simp] theorem argValue_rename (args : List Arg) (rename : Cell → Cell) (position : Nat) :
    argValue (args.map (Arg.rename rename)) position = argValue args position := by
  rw [argValue, argValue, List.getElem?_map, Option.map_map]
  rfl

namespace SliderFunctions

theorem maskOf_rename {shift : CellShift} {arg? : Option Arg}
    (used : ∀ arg, arg? = some arg → ∀ cell, arg.cell? = some cell → shift.InUse cell) :
    maskOf (arg?.map (Arg.rename shift.move)) = maskOf arg? := by
  cases arg? with
  | none => rfl
  | some arg =>
      simp only [maskOf, Option.map_some, Arg.rename]
      cases plain : arg.cell? with
      | none => rfl
      | some cell =>
          simp only [Option.map_some, Option.bind_some,
            CellShift.sliderOf?_move (used arg rfl cell plain)]

end SliderFunctions

namespace FileFunctions

theorem handle_rename (args : List Arg) (rename : Cell → Cell) :
    handle (args.map (Arg.rename rename)) = handle args :=
  congrArg Number.roundToSigned (argValue_rename args rename 0)

theorem target?_rename {shift : CellShift} {arg : Arg}
    (used : ∀ cell, arg.cell? = some cell → shift.InUse cell) (header : Header)
    {one two : Strings} (same : one.Same two) :
    target? header (arg.rename shift.move) two = target? header arg one := by
  have slider : sliderOf? header (arg.rename shift.move) = sliderOf? header arg := by
    rw [sliderOf?, sliderOf?, Arg.rename]
    cases plain : arg.cell? with
    | none => rfl
    | some cell =>
        simp only [Option.map_some, Option.bind_some,
          CellShift.sliderOf?_move (used cell plain)]
  rw [target?, target?, slider, ← same.find?]
  rfl

end FileFunctions

/-! ## Surroundings -/

/-- Two surroundings are the same; of the keyboards this is known if somebody listens. -/
structure Surroundings.Same (listening : Prop) (one two : Surroundings) : Prop where
  masks : one.masks = two.masks
  files : one.files = two.files
  input : one.input = two.input
  output : one.output = two.output
  keyboard : listening → one.keyboard = two.keyboard

namespace HostFunction

/-- Two states agree up to a shift of cells. -/
structure Twins (shift : CellShift) (listening : Prop) (one two : State) : Prop where
  store : Store.Twins shift one.1 two.1
  around : Surroundings.Same listening one.2 two.2

/-- Two runs of a function give the same result and leave twins. -/
def TwinsAgree (shift : CellShift) (listening : Prop) (one two : Float × State) : Prop :=
  one.1 = two.1 ∧ Twins shift listening one.2 two.2

variable {shift : CellShift} {listening : Prop} {one two : State} {args : List Arg}

theorem twins_onMasks (twins : Twins shift listening one two)
    {operation other : SliderMasks → Float × SliderMasks}
    (same : ∀ masks, operation masks = other masks) :
    TwinsAgree shift listening (onMasks operation one) (onMasks other two) := by
  have around := twins.around
  rw [onMasks, onMasks, same, around.masks]
  exact ⟨rfl, twins.store, rfl, around.files, around.input, around.output, around.keyboard⟩

/-! ### Files -/

/-- The files that both have after a call. -/
theorem Twins.withFiles (twins : Twins shift listening one two) {first second : Store}
    (store : Store.Twins shift first second) {files others : FileTable} (same : files = others) :
    Twins shift listening (first, { one.2 with files := files })
      (second, { two.2 with files := others }) :=
  have around := twins.around
  ⟨store, around.masks, same, around.input, around.output, around.keyboard⟩

theorem twins_onFiles (twins : Twins shift listening one two)
    {operation other : FileTable → Float × FileTable}
    (same : ∀ files, operation files = other files) :
    TwinsAgree shift listening (onFiles operation one) (onFiles other two) := by
  rw [onFiles, onFiles, same, twins.around.files]
  exact ⟨rfl, twins.withFiles twins.store rfl⟩

/-- Two runs of an operation on one file. -/
def FileTwins (shift : CellShift) {α : Type} (one two : (α × Store) × OpenFile) : Prop :=
  one.1.1 = two.1.1 ∧ Store.Twins shift one.1.2 two.1.2 ∧ one.2 = two.2

theorem twins_ofFile (twins : Twins shift listening one two) {α : Type} (handle : Int)
    (tell : α → Float) {operation other : Store → OpenFile → (α × Store) × OpenFile}
    (same : ∀ file, FileTwins shift (operation one.1 file) (other two.1 file)) :
    TwinsAgree shift listening (onFilesAndStore (ofFile handle tell operation) one)
      (onFilesAndStore (ofFile handle tell other) two) := by
  simp only [onFilesAndStore, ofFile, FileTable.withFile, twins.around.files]
  cases two.2.files.get? handle with
  | none => exact ⟨rfl, twins.withFiles twins.store rfl⟩
  | some file =>
      rcases same file with ⟨result, store, next⟩
      simp only [result, next]
      exact ⟨rfl, twins.withFiles store rfl⟩

theorem twins_value (twins : Twins shift listening one two)
    (used : ArgsWithin shift.InUse args) :
    TwinsAgree shift listening (onFilesAndStore (FileFunctions.value args) one)
      (onFilesAndStore (FileFunctions.value (args.map (Arg.rename shift.move))) two) := by
  have moved : (args.map (Arg.rename shift.move))[1]? = args[1]?.map (Arg.rename shift.move) :=
    List.getElem?_map
  cases named : args[1]? with
  | none =>
      rw [named] at moved
      simp only [onFilesAndStore, FileFunctions.value, named, moved, Option.map_none]
      exact ⟨rfl, twins.withFiles twins.store twins.around.files⟩
  | some arg =>
      rw [named] at moved
      rw [value_eq_ofFile named, value_eq_ofFile moved, FileFunctions.handle_rename]
      apply twins_ofFile twins
      intro file
      rw [moveValue, moveValue, Arg.rename]
      split
      · exact ⟨rfl, twins.store, rfl⟩
      · split
        · next value next _ =>
            exact ⟨rfl, twins.store.assign (used arg (List.mem_of_getElem? named)) value, rfl⟩
        · exact ⟨rfl, twins.store, rfl⟩

/-- Blocks of one file are read alike. -/
theorem twins_readBlocks (left : Nat) {address : Nat} {store other : Store}
    (twins : Store.Twins shift store other) (file : OpenFile) :
    let read := FileFunctions.readBlocks left address store file
    let again := FileFunctions.readBlocks left address other file
    read.1 = again.1 ∧ Store.Twins shift read.2.1 again.2.1 ∧ read.2.2 = again.2.2 := by
  rw [FileFunctions.readBlocks_eq, FileFunctions.readBlocks_eq, twins.memory]
  dsimp only
  rcases twins.writeRange address
    (file.readValues (FileFunctions.asked other.memory left address)).1 with ⟨count, stored⟩
  exact ⟨count, stored, rfl⟩

theorem twins_block (twins : Twins shift listening one two) (args : List Arg) :
    TwinsAgree shift listening (onFilesAndStore (FileFunctions.block args) one)
      (onFilesAndStore (FileFunctions.block (args.map (Arg.rename shift.move))) two) := by
  have same : FileFunctions.block (args.map (Arg.rename shift.move)) =
      FileFunctions.block args := by
    funext store files
    simp only [FileFunctions.block, argValue_rename, FileFunctions.handle_rename]
  rw [same]
  by_cases nothing : (argValue args 1 < 0.0 || argValue args 2 ≤ 0.0) = true
  · simp only [onFilesAndStore, FileFunctions.block, nothing, if_true]
    exact ⟨rfl, twins.withFiles twins.store twins.around.files⟩
  · rw [block_eq_ofFile nothing]
    apply twins_ofFile twins
    intro file
    rw [moveBlock, moveBlock]
    split
    · rw [twins.store.memory]
      exact ⟨rfl, twins.store, rfl⟩
    · exact twins_readBlocks _ twins.store file

theorem twins_string (twins : Twins shift listening one two) (args : List Arg) :
    TwinsAgree shift listening (onFilesAndStore (FileFunctions.string args) one)
      (onFilesAndStore (FileFunctions.string (args.map (Arg.rename shift.move))) two) := by
  rw [string_eq_ofFile, string_eq_ofFile, FileFunctions.handle_rename, argValue_rename]
  apply twins_ofFile twins
  intro file
  rw [moveString, moveString, twins.store.strings.find?]
  split
  · exact ⟨rfl, twins.store, rfl⟩
  · split
    · rcases twins.store.setString (argValue args 1) _ with ⟨done, stored⟩
      exact ⟨done, stored, rfl⟩
    · exact ⟨rfl, twins.store, rfl⟩

theorem twins_audioShape (twins : Twins shift listening one two)
    (used : ArgsWithin shift.InUse args) :
    let told := FileFunctions.audioShape args one.1 one.2.files
    let again := FileFunctions.audioShape (args.map (Arg.rename shift.move)) two.1 two.2.files
    told.1 = again.1 ∧ Store.Twins shift told.2 again.2 := by
  rw [FileFunctions.audioShape, FileFunctions.audioShape, FileFunctions.handle_rename,
    twins.around.files]
  split
  · exact ⟨rfl, twins.store⟩
  · exact ⟨rfl, (twins.store.assignArg used 1 _).assignArg used 2 _⟩

theorem openFile_rename (twins : Store.Twins shift one.1 two.1)
    (used : ArgsWithin shift.InUse args) (facts : Facts) (files : FileTable) :
    FileFunctions.openFile facts (args.map (Arg.rename shift.move)) two.1 files =
      FileFunctions.openFile facts args one.1 files := by
  rw [FileFunctions.openFile, FileFunctions.openFile, List.head?_map]
  cases first : args.head? with
  | none => rfl
  | some arg =>
      have target := FileFunctions.target?_rename (used arg (List.mem_of_head? first))
        facts.header twins.strings
      simp only [Option.map_some, Option.bind_eq_bind, Option.bind_some, target]

/-! ### MIDI -/

theorem sendBus_of_twins {store other : Store} (twins : Store.Twins shift store other) :
    sendBus other = sendBus store := by
  rw [sendBus, sendBus, isExtended, isExtended, twins.read, twins.read]

/-- A sender does the same in twin stores. -/
def SendsAlike (sender : Store → MidiLog → List Arg → Float × MidiLog) : Prop :=
  ∀ (shift : CellShift) (store other : Store) (log : MidiLog) (args : List Arg),
    Store.Twins shift store other →
      sender other log (args.map (Arg.rename shift.move)) = sender store log args

theorem sendsAlike_sendShort : SendsAlike sendShort := by
  intro shift store other log args twins
  simp only [sendShort, shortMessage, MidiFunctions.send, argValue_rename, List.length_map,
    sendBus_of_twins twins]

theorem sendsAlike_sendMemory : SendsAlike sendMemory := by
  intro shift store other log args twins
  simp only [sendMemory, MidiFunctions.send, argValue_rename, sendBus_of_twins twins,
    twins.memory]

theorem sendsAlike_sendText : SendsAlike sendText := by
  intro shift store other log args twins
  simp only [sendText, MidiFunctions.send, argValue_rename, sendBus_of_twins twins,
    twins.strings.find?]

theorem sendsAlike_sendExclusive : SendsAlike sendExclusive := by
  intro shift store other log args twins
  simp only [sendExclusive, argValue_rename, sendBus_of_twins twins, twins.memory]

theorem twins_send (twins : Twins shift listening one two)
    {sender : Store → MidiLog → List Arg → Float × MidiLog} (alike : SendsAlike sender)
    (caller : Caller) (args : List Arg) :
    TwinsAgree shift listening (send caller sender args one)
      (send caller sender (args.map (Arg.rename shift.move)) two) := by
  have around := twins.around
  have sent : sender two.1 two.2.output (args.map (Arg.rename shift.move)) =
      sender one.1 one.2.output args := by
    rw [alike shift _ _ _ args twins.store, around.output]
  rw [send, send, sent]
  split
  · exact ⟨rfl, twins.store, around.masks, around.files, around.input, rfl, around.keyboard⟩
  · exact ⟨rfl, twins⟩

/-- Two ways to take a message are the same in twin stores. -/
def AcceptsAlike (shift : CellShift) (accept other : Acceptance) : Prop :=
  ∀ (event : MidiEvent) (store again : Store), Store.Twins shift store again →
    (accept event store = none ∧ other event again = none) ∨
      ∃ result taken takenToo, accept event store = some (result, taken) ∧
        other event again = some (result, takenToo) ∧ Store.Twins shift taken takenToo

theorem acceptsAlike_acceptShort (used : ArgsWithin shift.InUse args) :
    AcceptsAlike shift (acceptShort args) (acceptShort (args.map (Arg.rename shift.move))) := by
  intro event store again twins
  simp only [acceptShort, List.length_map]
  split
  · exact .inl ⟨rfl, rfl⟩
  · have begun := (twins.assignArg used 0 (Float.ofNat event.offset.toNat)).assignArg used 1
      (Float.ofNat (messageByte event 0))
    refine .inr ⟨_, _, _, rfl, rfl, ?_⟩
    split
    · exact (begun.assignArg used 2 _).assignArg used 3 _
    · exact begun.assignArg used 2 _

theorem acceptsAlike_acceptMemory (used : ArgsWithin shift.InUse args) (address most : Nat) :
    AcceptsAlike shift (acceptMemory args address most)
      (acceptMemory (args.map (Arg.rename shift.move)) address most) := by
  intro event store again twins
  rw [acceptMemory, acceptMemory]
  split
  · exact .inl ⟨rfl, rfl⟩
  · exact .inr ⟨_, _, _, rfl, rfl, (twins.writeRange address _).2.assignArg used 0 _⟩

theorem acceptsAlike_acceptText (used : ArgsWithin shift.InUse args) (id : Float) :
    AcceptsAlike shift (acceptText args id)
      (acceptText (args.map (Arg.rename shift.move)) id) := by
  intro event store again twins
  rcases twins.setString id (textOfBytes event.message) with ⟨done, stored⟩
  simp only [acceptText, done]
  split
  · exact .inr ⟨_, _, _, rfl, rfl, stored.assignArg used 0 _⟩
  · exact .inl ⟨rfl, rfl⟩

/-- Looking for an event comes out alike. -/
theorem twins_receiveFrom {accept other : Acceptance} (alike : AcceptsAlike shift accept other)
    (allBuses : Bool) {store again : Store} (twins : Store.Twins shift store again)
    (input output : MidiLog) :
    let found := receiveFrom accept allBuses store input output
    let foundToo := receiveFrom other allBuses again input output
    found.1 = foundToo.1 ∧ Store.Twins shift found.2.1 foundToo.2.1 ∧
      found.2.2 = foundToo.2.2 := by
  fun_induction receiveFrom accept allBuses store input output with
  | case1 input output nothing =>
      rw [receiveFrom]
      split
      · exact ⟨rfl, twins, rfl⟩
      · next read =>
          rw [nothing] at read
          cases read
  | case2 input output event rest read result taken accepted told =>
      rcases alike event store again twins with ⟨refused, _⟩ | ⟨_, _, takenToo, own, acceptedToo, stored⟩
      · rw [refused] at accepted
        cases accepted
      · rw [own] at accepted
        cases accepted
        rw [receiveFrom]
        split
        · next nothing =>
            rw [nothing] at read
            cases read
        · next eventToo restToo readToo =>
            rw [read] at readToo
            cases readToo
            rw [acceptedToo]
            refine ⟨rfl, ?_, rfl⟩
            dsimp only [told]
            split
            · exact stored.write .midiBus _
            · exact stored
  | case3 input output event rest read refused ih =>
      rcases alike event store again twins with ⟨_, refusedToo⟩ | ⟨_, _, _, own, _, _⟩
      · rw [receiveFrom.eq_def other]
        split
        · next nothing =>
            rw [nothing] at read
            cases read
        · next eventToo restToo readToo =>
            rw [read] at readToo
            cases readToo
            rw [refusedToo]
            exact ih
      · rw [own] at refused
        cases refused

theorem twins_receive (twins : Twins shift listening one two) {accept? other? : Option Acceptance}
    (alike : (accept? = none ∧ other? = none) ∨ ∃ accept other, accept? = some accept ∧
      other? = some other ∧ AcceptsAlike shift accept other) (caller : Caller) :
    TwinsAgree shift listening (receive caller accept? one) (receive caller other? two) := by
  have around := twins.around
  rcases alike with ⟨rfl, rfl⟩ | ⟨accept, other, rfl, rfl, alike⟩
  · exact ⟨rfl, twins⟩
  · have extended : isExtended two.1 = isExtended one.1 := by
      rw [isExtended, isExtended, twins.store.read]
    have found := twins_receiveFrom alike (isExtended one.1) twins.store two.2.input two.2.output
    rw [receive.eq_def, receive.eq_def caller (some other)]
    dsimp only
    rw [extended, around.input, around.output]
    split
    · rcases found with ⟨result, store, logs⟩
      rw [Prod.mk.injEq] at logs
      exact ⟨result, store, around.masks, around.files, logs.1, logs.2, around.keyboard⟩
    · exact ⟨rfl, twins⟩

theorem twins_midiReceiveMemory (twins : Twins shift listening one two)
    (used : ArgsWithin shift.InUse args) (caller : Caller) :
    TwinsAgree shift listening (receive caller (memoryAcceptance? args) one)
      (receive caller (memoryAcceptance? (args.map (Arg.rename shift.move))) two) := by
  apply twins_receive twins
  rw [memoryAcceptance?, memoryAcceptance?, argValue_rename, argValue_rename]
  split
  · exact .inl ⟨rfl, rfl⟩
  · exact .inr ⟨_, _, rfl, rfl, acceptsAlike_acceptMemory used _ _⟩

/-! ### All functions -/

theorem twins_key (twins : Twins shift listening one two) {caller : Caller}
    (heard : caller.mayUseKeyboard = true → listening) (args : List Arg) :
    TwinsAgree shift listening (key caller args one)
      (key caller (args.map (Arg.rename shift.move)) two) := by
  have around := twins.around
  rw [key, key, argValue_rename]
  dsimp only
  split
  · next listens =>
      rw [around.keyboard (heard listens)]
      split
      · exact ⟨rfl, twins.store, around.masks, around.files, around.input, around.output,
          fun _ => rfl⟩
      · exact ⟨rfl, twins⟩
  · exact ⟨rfl, twins⟩

/-- Every host function does the same in twin stores. -/
theorem twins_run (twins : Twins shift listening one two) (facts : Facts) {caller : Caller}
    (heard : caller.mayUseKeyboard = true → listening) (function : HostFunction)
    (used : ArgsWithin shift.InUse args) :
    TwinsAgree shift listening (function.run facts caller args one)
      (function.run facts caller (args.map (Arg.rename shift.move)) two) := by
  have mask : SliderFunctions.maskOf (args.map (Arg.rename shift.move)).head? =
      SliderFunctions.maskOf args.head? := by
    rw [List.head?_map]
    exact SliderFunctions.maskOf_rename fun arg first => used arg (List.mem_of_head? first)
  cases function with
  | sliderChange =>
      apply twins_onMasks twins
      intro masks
      simp only [SliderFunctions.change, mask]
  | sliderAutomate =>
      apply twins_onMasks twins
      intro masks
      simp only [SliderFunctions.automate, SliderFunctions.change, mask]
  | sliderShow =>
      apply twins_onMasks twins
      intro masks
      simp only [SliderFunctions.reveal, mask, argValue_rename]
  | midiSend => exact twins_send twins sendsAlike_sendShort caller args
  | midiSendMemory => exact twins_send twins sendsAlike_sendMemory caller args
  | midiSendText => exact twins_send twins sendsAlike_sendText caller args
  | midiSendExclusive => exact twins_send twins sendsAlike_sendExclusive caller args
  | midiReceive =>
      exact twins_receive twins (.inr ⟨_, _, rfl, rfl, acceptsAlike_acceptShort used⟩) caller
  | midiReceiveMemory => exact twins_midiReceiveMemory twins used caller
  | midiReceiveText =>
      simp only [run, argValue_rename]
      exact twins_receive twins (.inr ⟨_, _, rfl, rfl, acceptsAlike_acceptText used _⟩) caller
  | fileOpen =>
      apply twins_onFiles twins
      intro files
      exact (openFile_rename twins.store used facts files).symm
  | fileClose =>
      apply twins_onFiles twins
      intro files
      simp only [FileFunctions.close, FileFunctions.handle_rename]
  | fileRewind =>
      apply twins_onFiles twins
      intro files
      simp only [FileFunctions.rewind, FileFunctions.handle_rename]
  | fileValue => exact twins_value twins used
  | fileBlock => exact twins_block twins args
  | fileAvailable =>
      simp only [run, FileFunctions.available, FileFunctions.handle_rename, twins.around.files]
      exact ⟨rfl, twins⟩
  | fileAudioShape =>
      rcases twins_audioShape twins used with ⟨told, store⟩
      exact ⟨told, store, twins.around⟩
  | fileIsText =>
      simp only [run, FileFunctions.isText, FileFunctions.handle_rename, twins.around.files]
      exact ⟨rfl, twins⟩
  | fileString => exact twins_string twins args
  | nextKey => exact twins_key twins heard args

/-- Code that does not draw runs in twin stores as in a mirror. -/
theorem mirrors_call (facts : Facts) {caller : Caller}
    (heard : caller.mayUseKeyboard = true → listening) :
    ({ call := call facts caller } : CodeHost Surroundings).Mirrors { call := call facts caller }
      shift.InUse shift.move (Twins shift listening) where
  get := fun twins used => twins.store.get _ used
  readItem := fun position twins => twins.store.readItem position
  set := fun value twins used => ⟨twins.store.set used value, twins.around⟩
  writeItem := fun position value twins => ⟨twins.store.writeItem position value, twins.around⟩
  call := by
    intro one two name args twins used
    simp only [call]
    split
    · next function _ =>
        rcases twins_run twins facts heard function used with ⟨result, states⟩
        exact ⟨congrArg some result, states⟩
    · exact ⟨rfl, twins⟩

end HostFunction
end EffectHost

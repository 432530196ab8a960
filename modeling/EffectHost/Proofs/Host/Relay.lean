import EffectHost.Proofs.Host.Exchange
import EffectHost.Proofs.Host.MessageMemory
import EffectHost.Proofs.Host.Sending
import EffectHost.Proofs.Host.Variables

/-!
# Relaying events

A script that receives an event and sends it on does so through its variables, its memory or
one of its strings.  The bus, the frame and the bytes of the event are values on their way, and
each kind of value gives back what was put into it.  So the output ends with the event as it
was, whichever way it takes.
-/

namespace EffectHost

open Code HostFunction MidiFunctions Number

/-! ## Variables that are set together -/

namespace Store

/-- Set variables one after another. -/
def setAll (store : Store) (values : List (Cell × Float)) : Store :=
  values.foldl (fun store entry => store.set entry.1 entry.2) store

variable {values : List (Cell × Float)} {cell : Cell} {value : Float}

theorem setAll_cons (store : Store) (entry : Cell × Float) :
    store.setAll (entry :: values) = (store.set entry.1 entry.2).setAll values := rfl

theorem setAll_append (store : Store) (others : List (Cell × Float)) :
    store.setAll (values ++ others) = (store.setAll values).setAll others :=
  List.foldl_append

@[simp] theorem rest_setAll (store : Store) (values : List (Cell × Float)) :
    (store.setAll values).memory = store.memory ∧ (store.setAll values).strings = store.strings := by
  induction values generalizing store with
  | nil => exact ⟨rfl, rfl⟩
  | cons entry others ih => exact ih _

/-- A variable that is not set keeps its value. -/
theorem get_setAll_of_notMem (apart : cell ∉ values.map Prod.fst) (store : Store) :
    (store.setAll values).get cell = store.get cell := by
  induction values generalizing store with
  | nil => rfl
  | cons entry others ih =>
      rw [List.map_cons, List.mem_cons, not_or] at apart
      rw [setAll_cons, ih apart.2, get_set_of_ne store (Ne.symm apart.1)]

/-- Each of different variables has the value that it was set to. -/
theorem get_setAll_of_mem (distinct : (values.map Prod.fst).Nodup)
    (member : (cell, value) ∈ values) {store : Store}
    (inside : cell.index < store.cells.size) : (store.setAll values).get cell = value := by
  induction values generalizing store with
  | nil => cases member
  | cons entry others ih =>
      rw [List.map_cons, List.nodup_cons] at distinct
      rw [setAll_cons]
      rcases List.mem_cons.mp member with rfl | later
      · rw [get_setAll_of_notMem distinct.1, get_set_self inside]
      · exact ih distinct.2 later (by simpa [set] using inside)

end Store

/-! ## Operands -/

/-- An argument that a script writes down: a number, or a variable. -/
inductive Operand where
  | number (value : Float)
  | held (cell : Cell)

namespace Operand

def expr : Operand → Expr Cell Nat
  | number value => .number value
  | held cell => .variable cell

def value (store : Store) : Operand → Float
  | number value => value
  | held cell => store.get cell

def cell? : Operand → Option Cell
  | number _ => none
  | held cell => some cell

/-- The argument that a function is called with. -/
def arg (store : Store) (operand : Operand) : Arg :=
  ⟨operand.value store, operand.cell?⟩

theorem evalArgs_operands {σ : Type} (host : CodeHost σ) (operands : List Operand)
    (state : Store × σ) :
    evalArgs host (operands.map expr) state = (operands.map (arg state.1), state) := by
  induction operands with
  | nil => rfl
  | cons operand others ih =>
      have first : evalArgs host (operand.expr :: others.map expr) state =
          (operand.arg state.1 :: (evalArgs host (others.map expr) state).1,
            (evalArgs host (others.map expr) state).2) := by
        cases operand <;> rfl
      rw [List.map_cons, first, ih]
      rfl

theorem eval_call (facts : Facts) (caller : Caller) {name : String} {function : HostFunction}
    (known : ofName? name = some function) (operands : List Operand)
    (state : HostFunction.State) :
    eval { call := call facts caller } (.call name (operands.map expr)) state =
      function.run facts caller (operands.map (arg state.1)) state :=
  SavedItem.eval_call_of_name facts caller known (evalArgs_operands _ operands state)

/-- An operand keeps its value when other variables are set. -/
theorem value_setAll {operand : Operand} {values : List (Cell × Float)}
    (apart : ∀ cell ∈ operand.cell?, cell ∉ values.map Prod.fst) (store : Store) :
    operand.value (store.setAll values) = operand.value store := by
  cases operand with
  | number value => rfl
  | held cell => exact Store.get_setAll_of_notMem (apart cell rfl) store

end Operand

/-! ## Ways of an event -/

/-- A way in which a script passes on an event. -/
inductive Relay where
  /-- Three bytes, of which the last two share a variable. -/
  | packed (offset first others : Cell)
  /-- Three bytes in variables of their own. -/
  | bytes (offset first second third : Cell)
  /-- Bytes in memory, and their number in a variable. -/
  | memory (offset size : Cell) (address most : Operand)
  /-- Bytes in a string. -/
  | text (offset : Cell) (id : Operand)

namespace Relay

/-- Receive an event and send it. -/
def program : Relay → Program
  | packed offset first others =>
    let arguments := [.variable offset, .variable first, .variable others]
    [.call "midirecv" arguments, .call "midisend" arguments]
  | bytes offset first second third =>
    let arguments := [.variable offset, .variable first, .variable second, .variable third]
    [.call "midirecv" arguments, .call "midisend" arguments]
  | memory offset size address most =>
    [.assign size (.call "midirecv_buf" [.variable offset, address.expr, most.expr]),
      .call "midisend_buf" [.variable offset, address.expr, .variable size]]
  | text offset id =>
    let arguments := [.variable offset, id.expr]
    [.call "midirecv_str" arguments, .call "midisend_str" arguments]

def receiver : Relay → HostFunction
  | packed .. | bytes .. => .midiReceive
  | memory .. => .midiReceiveMemory
  | text .. => .midiReceiveText

def sender : Relay → HostFunction
  | packed .. | bytes .. => .midiSend
  | memory .. => .midiSendMemory
  | text .. => .midiSendText

/-- The operands of the receiving call. -/
def received : Relay → List Operand
  | packed offset first others => [.held offset, .held first, .held others]
  | bytes offset first second third => [.held offset, .held first, .held second, .held third]
  | memory offset _ address most => [.held offset, address, most]
  | text offset id => [.held offset, id]

/-- The operands of the sending call. -/
def sent : Relay → List Operand
  | memory offset size address _ => [.held offset, address, .held size]
  | relay => relay.received

/-- The variables that a relay sets. -/
def targets : Relay → List Cell
  | packed offset first others => [offset, first, others]
  | bytes offset first second third => [offset, first, second, third]
  | memory offset size .. => [offset, size]
  | text offset _ => [offset]

/-- The operands that a relay only reads. -/
def fixed : Relay → List Operand
  | packed .. | bytes .. => []
  | memory _ _ address most => [address, most]
  | text _ id => [id]

/-- The variables of a relay. -/
def cells (relay : Relay) : List Cell :=
  relay.targets ++ relay.fixed.flatMap fun operand => operand.cell?.toList

/-- The variables of a relay are different ones, and the host does not use them for buses. -/
def Distinct (relay : Relay) : Prop :=
  (relay.cells ++ [HostVariable.extendedMidiBus.cell, HostVariable.midiBus.cell]).Nodup

/-- The variables of a relay and of the host are there. -/
structure Within (store : Store) (relay : Relay) : Prop where
  hosted : store.Hosted
  cells : ∀ cell ∈ relay.cells, cell.index < store.cells.size

/-- The script keeps the result of the receiving call, if it needs it. -/
def keep (result : Float) (store : Store) : Relay → Store
  | memory _ size _ _ => store.set size result
  | _ => store

/-- A relay sends what is in the store once it has received. -/
theorem run_program (facts : Facts) (caller : Caller) (relay : Relay)
    (state : HostFunction.State) :
    let got := relay.receiver.run facts caller (relay.received.map (Operand.arg state.1)) state
    let kept := relay.keep got.1 got.2.1
    Code.run { call := call facts caller } relay.program state =
      (relay.sender.run facts caller (relay.sent.map (Operand.arg kept)) (kept, got.2.2)).2 := by
  intro got kept
  let host : CodeHost Surroundings := { call := call facts caller }
  have receives (name : String) (known : ofName? name = some relay.receiver) :
      eval host (.call name (relay.received.map Operand.expr)) state = got :=
    Operand.eval_call facts caller known relay.received state
  have sends (name : String) (known : ofName? name = some relay.sender) :
      eval host (.call name (relay.sent.map Operand.expr)) (kept, got.2.2) = _ :=
    Operand.eval_call facts caller known relay.sent (kept, got.2.2)
  have both {first second : Expr Cell Nat} {result : Float × Store × Surroundings}
      (one : (eval host first state).2 = (kept, got.2.2))
      (two : eval host second (kept, got.2.2) = result) :
      Code.run host [first, second] state = result.2 := by
    rw [← two, ← one]
    rfl
  cases relay with
  | packed offset first others =>
      exact both (congrArg Prod.snd (receives "midirecv" rfl))
        (sends "midisend" rfl)
  | bytes offset first second third =>
      exact both (congrArg Prod.snd (receives "midirecv" rfl))
        (sends "midisend" rfl)
  | memory offset size address most =>
      exact both (congrArg (fun done => (done.2.1.set size done.1, done.2.2))
        (receives "midirecv_buf" rfl)) (sends "midisend_buf" rfl)
  | text offset id =>
      exact both (congrArg Prod.snd (receives "midirecv_str" rfl))
        (sends "midisend_str" rfl)

/-! ## What is received -/

variable {relay : Relay} {event : MidiEvent} {extended : Bool} {store : Store}

/-- An event that a relay passes on as it is: three bytes, a message that fits into the memory,
or one that is held by a string of the script's own. -/
def Carries (store : Store) (event : MidiEvent) : Relay → Prop
  | packed .. | bytes .. => event.message.size = 3
  | memory _ _ address most =>
    ¬ address.value store < 0.0 ∧ ¬ most.value store < 0.0 ∧
      event.message.size ≤ toNatural (most.value store) ∧
      (event.message.size = 0 ∨
        toNatural (address.value store) + event.message.size ≤ store.memory.limit)
  | text _ id => ∃ key, Strings.key? (id.value store) = some key ∧ key < userStrings

/-- The values that the receiving call puts into variables. -/
def assigned (event : MidiEvent) : Relay → List (Cell × Float)
  | packed offset first others =>
    [(offset, Float.ofNat event.offset.toNat), (first, Float.ofNat (messageByte event 0)),
      (others, Float.ofNat (messageByte event 1) + Float.ofNat (messageByte event 2) * 256.0)]
  | bytes offset first second third =>
    [(offset, Float.ofNat event.offset.toNat), (first, Float.ofNat (messageByte event 0)),
      (second, Float.ofNat (messageByte event 1)), (third, Float.ofNat (messageByte event 2))]
  | memory offset .. | text offset _ => [(offset, Float.ofNat event.offset.toNat)]

/-- The bus of the event, if the script asks for it. -/
def told (extended : Bool) (event : MidiEvent) : List (Cell × Float) :=
  if extended then [(HostVariable.midiBus.cell, Float.ofNat event.bus.toNat)] else []

/-- The size of the event, if the script keeps it. -/
def noted (event : MidiEvent) : Relay → List (Cell × Float)
  | memory _ size _ _ => [(size, Float.ofNat event.message.size)]
  | _ => []

/-- All that is put into variables. -/
def entries (extended : Bool) (event : MidiEvent) (relay : Relay) : List (Cell × Float) :=
  relay.assigned event ++ told extended event ++ relay.noted event

/-- The store with the message in memory or in a string, as far as it goes there. -/
def holding (event : MidiEvent) (store : Store) : Relay → Store
  | packed .. | bytes .. => store
  | memory _ _ address _ =>
    (store.writeRange (toNatural (address.value store))
      (event.message.data.map fun byte => Float.ofNat byte.toNat)).2
  | text _ id => (store.setString (id.value store) (textOfBytes event.message)).2

/-- The store once a relay has received an event. -/
def loaded (extended : Bool) (event : MidiEvent) (store : Store) (relay : Relay) : Store :=
  (relay.holding event store).setAll (relay.entries extended event)

theorem cells_holding (relay : Relay) (event : MidiEvent) (store : Store) :
    (relay.holding event store).cells = store.cells := by
  cases relay with
  | packed | bytes | memory => rfl
  | text offset id =>
      rw [holding, Store.setString]
      split <;> rfl

/-- The relay's receiving call may be made. -/
theorem Carries.mayReceive (carries : relay.Carries store event) :
    relay.receiver.MayReceive (relay.received.map (Operand.arg store)) := by
  cases relay with
  | packed | bytes | text => trivial
  | memory offset size address most => exact ⟨carries.1, carries.2.1⟩

/-- A relay takes an event that it carries. -/
theorem Carries.takes (carries : relay.Carries store event) :
    relay.receiver.takes (relay.received.map (Operand.arg store)) store event = true := by
  cases relay with
  | packed | bytes => exact decide_eq_true (Nat.le_of_eq carries)
  | memory offset size address most => exact decide_eq_true carries.2.2.1
  | text offset id =>
      rcases carries with ⟨key, known, own⟩
      have isOwn : store.strings.isWritable (id.value store) = true := by
        simp [Strings.isWritable, known, own]
      exact isOwn

/-- What the receiving call leaves, together with the result that the script keeps. -/
theorem Carries.loaded_eq (carries : relay.Carries store event) {result : Float}
    {taken : Store}
    (took : relay.receiver.taken? (relay.received.map (Operand.arg store)) event store =
      some (result, taken)) (extended : Bool) :
    relay.keep result
        (if extended then taken.write .midiBus (Float.ofNat event.bus.toNat) else taken) =
      relay.loaded extended event store := by
  have tells (taken : Store) :
      (if extended then taken.write .midiBus (Float.ofNat event.bus.toNat) else taken) =
        taken.setAll (told extended event) := by
    cases extended <;> rfl
  rw [tells, loaded, entries, Store.setAll_append, Store.setAll_append]
  cases relay with
  | packed offset first others =>
      have small : ¬ 3 < event.message.size := Nat.not_lt_of_le (Nat.le_of_eq carries)
      have accepted : acceptShort _ event store = some (result, taken) := took
      rw [acceptShort, if_neg small] at accepted
      cases accepted
      rfl
  | bytes offset first second third =>
      have small : ¬ 3 < event.message.size := Nat.not_lt_of_le (Nat.le_of_eq carries)
      have accepted : acceptShort _ event store = some (result, taken) := took
      rw [acceptShort, if_neg small] at accepted
      cases accepted
      rfl
  | memory offset size address most =>
      let args := [Operand.held offset, address, most].map (Operand.arg store)
      have accepted : acceptMemory args (toNatural (address.value store))
          (toNatural (most.value store)) event store = some (result, taken) := by
        rw [receiver, taken?, acceptance?_midiReceiveMemory carries.mayReceive,
          Option.bind_some] at took
        exact took
      rw [acceptMemory, if_neg (Nat.not_lt_of_le carries.2.2.1)] at accepted
      cases accepted
      rfl
  | text offset id =>
      rcases carries with ⟨key, known, own⟩
      have accepted : acceptText _ (id.value store) event store = some (result, taken) := took
      rw [acceptText, if_pos (Store.setString_own known own store _).1] at accepted
      cases accepted
      rfl

/-! ## What is sent -/

/-- A value is put into each variable that a relay sets, and the bus into that of the host. -/
theorem entries_perm (relay : Relay) (extended : Bool) (event : MidiEvent) :
    ((relay.entries extended event).map Prod.fst).Perm
      (relay.targets ++ (told extended event).map Prod.fst) := by
  have parts : (relay.assigned event).map Prod.fst ++ (relay.noted event).map Prod.fst =
      relay.targets := by
    cases relay <;> rfl
  rw [← parts, entries, List.map_append, List.map_append]
  simp only [List.append_assoc]
  exact List.Perm.append_left _ List.perm_append_comm

theorem told_sublist (extended : Bool) (event : MidiEvent) :
    ((told extended event).map Prod.fst).Sublist [HostVariable.midiBus.cell] := by
  cases extended with
  | false => exact List.nil_sublist _
  | true => exact List.Sublist.refl _

theorem Distinct.nodup_entries (distinct : relay.Distinct) (extended : Bool)
    (event : MidiEvent) : ((relay.entries extended event).map Prod.fst).Nodup := by
  rw [(entries_perm relay extended event).nodup_iff]
  refine List.Nodup.sublist ?_ distinct
  rw [cells, List.append_assoc]
  refine List.Sublist.append (List.Sublist.refl _) ?_
  exact ((told_sublist extended event).trans (List.sublist_cons_self _ _)).trans
    (List.sublist_append_right _ _)

/-- What a relay only reads is not set, and neither is the choice of buses. -/
theorem Distinct.notMem_entries (distinct : relay.Distinct) (extended : Bool)
    (event : MidiEvent) {cell : Cell}
    (read : cell ∈ relay.fixed.flatMap (fun operand => operand.cell?.toList) ++
      [HostVariable.extendedMidiBus.cell]) :
    cell ∉ (relay.entries extended event).map Prod.fst := by
  let reads := relay.fixed.flatMap (fun operand => operand.cell?.toList) ++
    [HostVariable.extendedMidiBus.cell]
  have moved : (relay.cells ++ [HostVariable.extendedMidiBus.cell, HostVariable.midiBus.cell]).Perm
      ((relay.targets ++ [HostVariable.midiBus.cell]) ++ reads) := by
    have last : relay.cells ++ [HostVariable.extendedMidiBus.cell, HostVariable.midiBus.cell] =
        relay.targets ++ (reads ++ [HostVariable.midiBus.cell]) := by simp [cells, reads]
    rw [last, List.append_assoc relay.targets]
    exact List.Perm.append_left _ List.perm_append_comm
  have parts := List.disjoint_of_nodup_append (moved.nodup_iff.mp distinct)
  intro member
  rw [(entries_perm relay extended event).mem_iff] at member
  refine parts ?_ read
  exact (List.Sublist.append (List.Sublist.refl _) (told_sublist extended event)).mem member

/-- Whatever is put into a variable is found there. -/
theorem Distinct.get_loaded (distinct : relay.Distinct) (within : relay.Within store)
    {cell : Cell} {value : Float} (member : (cell, value) ∈ relay.entries extended event) :
    (relay.loaded extended event store).get cell = value := by
  apply Store.get_setAll_of_mem (distinct.nodup_entries extended event) member
  have named : cell ∈ relay.targets ++ (told extended event).map Prod.fst :=
    (entries_perm relay extended event).mem_iff.mp (List.mem_map_of_mem member)
  rw [cells_holding]
  rcases List.mem_append.mp named with own | bus
  · exact within.cells cell (List.mem_append_left _ own)
  · rw [List.mem_singleton.mp ((told_sublist extended event).mem bus)]
    exact Nat.lt_of_lt_of_le (HostVariable.index_lt_length .midiBus) within.hosted

/-- Operands that are only read keep their values. -/
theorem Distinct.value_loaded (distinct : relay.Distinct) {operand : Operand}
    (member : operand ∈ relay.fixed) :
    operand.value (relay.loaded extended event store) = operand.value store := by
  have apart : ∀ cell ∈ operand.cell?, cell ∉ (relay.entries extended event).map Prod.fst := by
    intro cell named
    apply distinct.notMem_entries extended event
    exact List.mem_append_left _
      (List.mem_flatMap.mpr ⟨operand, member, Option.mem_toList.mpr named⟩)
  have kept : operand.value (relay.loaded extended event store) =
      operand.value (relay.holding event store) := Operand.value_setAll apart _
  rw [kept]
  cases operand with
  | number value => rfl
  | held cell => rw [Operand.value, Operand.value, Store.get, Store.get, cells_holding]

/-- The event goes back to its bus. -/
theorem Distinct.sendBus_loaded (distinct : relay.Distinct)
    (within : relay.Within store) (valid : event.isValid = true)
    (wanted : (LogReader.ofScript (isExtended store)).wants event = true) :
    isExtended (relay.loaded (isExtended store) event store) = isExtended store ∧
      sendBus (relay.loaded (isExtended store) event store) = event.bus := by
  have same : isExtended (relay.loaded (isExtended store) event store) = isExtended store := by
    rw [isExtended, Store.read, loaded,
      Store.get_setAll_of_notMem (distinct.notMem_entries _ event
        (List.mem_append_right _ (List.mem_singleton_self _))), Store.get, cells_holding]
    rfl
  refine ⟨same, ?_⟩
  rw [sendBus, same]
  have bounded : event.bus.toNat < midiBuses := ((MidiEvent.isValid_iff event).mp valid).1
  cases asks : isExtended store with
  | false =>
      rw [asks] at wanted
      rw [if_neg Bool.false_ne_true]
      exact (eq_of_beq wanted).symm
  | true =>
      have bus : (HostVariable.midiBus.cell, Float.ofNat event.bus.toNat) ∈
          relay.entries true event := by simp [entries, told]
      have least : midiBuses = 16 := rfl
      rw [if_pos rfl, Store.read, distinct.get_loaded within bus, round_ofNat _ _ (by omega),
        clamp_of_mem (by omega) (by omega), Int.toNat_natCast, UInt32.ofNat_toNat]

/-- The event goes back to its frame. -/
theorem Distinct.frame_loaded (distinct : relay.Distinct) (within : relay.Within store) :
    frame (argValue (relay.sent.map (Operand.arg (relay.loaded extended event store))) 0) =
      event.offset := by
  have first : ∃ offset, (offset, Float.ofNat event.offset.toNat) ∈
        relay.entries extended event ∧
      argValue (relay.sent.map (Operand.arg (relay.loaded extended event store))) 0 =
        (relay.loaded extended event store).get offset := by
    cases relay with
    | packed offset | bytes offset | memory offset | text offset =>
        exact ⟨offset, List.mem_cons_self, rfl⟩
  rcases first with ⟨offset, member, value⟩
  rw [value, distinct.get_loaded within member, frame_ofNat]

/-- The bytes that are stored in memory are those that are read from it. -/
theorem content_of_holdsMessage {memory : Memory} {address : Nat}
    (holds : memory.HoldsMessage address event) :
    memory.content address event.message.size = event.message.data.toList := by
  apply List.ext_getElem
  · rw [Memory.length_content]
    exact Array.length_toList.symm
  · intro position inside inside'
    rw [Memory.length_content] at inside
    have known : position < event.message.data.size := inside
    simp only [Memory.content, List.getElem_map, List.getElem_range', Nat.one_mul]
    rw [(holds position inside).2, messageByte, Array.getElem?_eq_getElem known]
    exact byteOf_toNat _

/-- Three bytes are those at the first three positions. -/
theorem exists_bytes (three : event.message.size = 3) :
    ∃ first second third : UInt8, event.message = Bytes.pack [first, second, third] ∧
      messageByte event 0 = first.toNat ∧ messageByte event 1 = second.toNat ∧
      messageByte event 2 = third.toNat := by
  have length : event.message.data.toList.length = 3 := three
  rcases List.length_eq_three.mp length with ⟨first, second, third, listed⟩
  have packed := Bytes.eq_pack listed
  refine ⟨first, second, third, packed, ?_, ?_, ?_⟩ <;> rw [messageByte, packed] <;> rfl

/-- What a relay stores in memory, it finds there. -/
theorem content_loaded {offset size : Cell} {address most : Operand}
    (carries : (memory offset size address most).Carries store event) :
    ((memory offset size address most).loaded extended event store).memory.content
      (toNatural (address.value store)) event.message.size = event.message.data.toList := by
  rcases carries with ⟨_, _, small, fits⟩
  let taken := (memory offset size address most).holding event store
  have accepted : acceptMemory [] (toNatural (address.value store))
      (toNatural (most.value store)) event store =
        some (Float.ofNat event.message.size, taken) :=
    if_neg (Nat.not_lt_of_le small)
  have holds := (stored_acceptMemory accepted).2.holds_iff.mpr fits
  rw [loaded, (Store.rest_setAll _ _).1]
  exact content_of_holdsMessage holds

/-- What a relay puts into a string of the script's own, it finds there. -/
theorem find?_loaded {offset : Cell} {id : Operand}
    (carries : (text offset id).Carries store event) :
    ((text offset id).loaded extended event store).strings.find? (id.value store) =
      some (textOfBytes event.message) := by
  rcases carries with ⟨key, known, own⟩
  have texts := (Store.setString_own known own store (textOfBytes event.message)).2
  rw [loaded, (Store.rest_setAll _ _).2, holding, Strings.find?, known, Option.bind_some, texts]
  exact Std.HashMap.getElem?_insert_self

/-- The message goes back to its bytes. -/
theorem Distinct.outgoing_loaded (distinct : relay.Distinct) (within : relay.Within store)
    (carries : relay.Carries store event) (valid : event.isValid = true) (extended : Bool) :
    ∃ success, outgoing? (relay.loaded extended event store)
      (relay.sent.map (Operand.arg (relay.loaded extended event store))) relay.sender =
        some (event.message, success) := by
  have entry {cell : Cell} {value : Float}
      (member : (cell, value) ∈ relay.assigned event ++ relay.noted event) :
      (relay.loaded extended event store).get cell = value := by
    apply distinct.get_loaded within
    simp only [entries, List.mem_append] at member ⊢
    tauto
  cases relay with
  | packed offset first others =>
      rcases exists_bytes carries with ⟨one, two, three, message, first', second, third⟩
      let args := (packed offset first others).sent.map
        (Operand.arg ((packed offset first others).loaded extended event store))
      have short : shortMessage args = (one, two, three) := by
        apply shortMessage_eq
        · rw [← first']
          exact entry (by simp [assigned])
        · have few : ¬ 4 ≤ args.length := by simp [args, sent, received]
          rw [if_neg few, ← second, ← third]
          exact entry (by simp [assigned])
      exact ⟨Float.ofNat one.toNat, by rw [sender, outgoing?, short, message]⟩
  | bytes offset first second third =>
      rcases exists_bytes carries with ⟨one, two, three, message, first', second', third'⟩
      let args := (bytes offset first second third).sent.map
        (Operand.arg ((bytes offset first second third).loaded extended event store))
      have short : shortMessage args = (one, two, three) := by
        apply shortMessage_eq
        · rw [← first']
          exact entry (by simp [assigned])
        · have many : 4 ≤ args.length := by simp [args, sent, received]
          rw [if_pos many, ← second', ← third']
          exact ⟨entry (by simp [assigned]), entry (by simp [assigned])⟩
      exact ⟨Float.ofNat one.toNat, by rw [sender, outgoing?, short, message]⟩
  | memory offset size address most =>
      let after := (memory offset size address most).loaded extended event store
      have bounded : event.message.size ≤ maxMidiMessage :=
        ((MidiEvent.isValid_iff event).mp valid).2
      have short : event.message.size < 2 ^ 53 := Nat.lt_of_le_of_lt bounded (by decide)
      have start : address.value after = address.value store :=
        distinct.value_loaded (by simp [fixed])
      have count : after.get size = Float.ofNat event.message.size :=
        entry (by simp [assigned, noted])
      refine ⟨Float.ofNat event.message.size, ?_⟩
      change (bytesInMemory? after.memory (address.value after) (after.get size)).map _ = _
      rw [start, count, bytesInMemory?_eq carries.1 (not_ofNat_lt_zero short),
        toNatural_ofNat short, Nat.min_eq_left bounded, content_loaded carries]
      rfl
  | text offset id =>
      let after := (text offset id).loaded extended event store
      have same : id.value after = id.value store := distinct.value_loaded (by simp [fixed])
      refine ⟨Float.ofNat event.message.size, ?_⟩
      change (after.strings.find? (id.value after)).map _ = _
      rw [same, find?_loaded carries, Option.map_some, bytesOfText_textOfBytes]

end Relay

/-! ## Relaying as a whole -/

/-- The first event that can be taken is delivered, and those in front of it go on. -/
theorem Reception.of_append {takes : MidiEvent → Bool} {passed rest : List MidiEvent}
    {event : MidiEvent} (refused : ∀ other ∈ passed, takes other = false)
    (taken : takes event = true) :
    Reception.of takes (passed ++ event :: rest) = ⟨passed, some event⟩ := by
  have front : passed.takeWhile (fun other => !takes other) = passed :=
    List.takeWhile_eq_self_iff.mpr fun other member => by rw [refused other member]; rfl
  have none : passed.find? takes = none :=
    List.find?_eq_none.mpr fun other member => by simp [refused other member]
  simp [of, List.takeWhile_append, front, List.find?_append, none, taken]

namespace Relay

/-- A relay reproduces an event.  A script that asks for all buses or for none, and receives
into variables that are different ones, sends the first event that it can take as it was: to
the same bus, at the same frame, with the same bytes.  The events in front of that one have
gone on before, and those behind it stay unread. -/
theorem relay_reproduces_event (facts : Facts) (caller : Caller) (relay : Relay)
    (state : HostFunction.State) (mayUse : caller.mayUseMidi = true)
    {inputCapacity outputCapacity : Nat} {inputExtensible : Bool}
    (input : (MidiLog.new inputCapacity inputExtensible).LeadsTo state.2.input)
    (output : (MidiLog.new outputCapacity true).LeadsTo state.2.output)
    (within : relay.Within state.1) (distinct : relay.Distinct)
    {passed rest : List MidiEvent} {event : MidiEvent}
    (unread : state.2.input.unread (.ofScript (isExtended state.1)) = passed ++ event :: rest)
    (refused : ∀ other ∈ passed, relay.receiver.takes
      (relay.received.map (Operand.arg state.1)) state.1 other = false)
    (carries : relay.Carries state.1 event) :
    let after := Code.run { call := call facts caller } relay.program state
    after.2.output.events = state.2.output.events ++ passed ++ [event] ∧
      isExtended after.1 = isExtended state.1 ∧
      after.2.input.unread (.ofScript (isExtended state.1)) = rest := by
  intro after
  let reader := LogReader.ofScript (isExtended state.1)
  let args := relay.received.map (Operand.arg state.1)
  let got := relay.receiver.run facts caller args state
  let loaded := relay.loaded (isExtended state.1) event state.1
  have ready := Surroundings.ready_of_leadsTo (isExtended state.1) input output
  have member : event ∈ state.2.input.unread reader := by
    rw [unread]
    exact List.mem_append_right _ List.mem_cons_self
  have known := ready.border.of_mem_unread member
  rcases conserves_run facts ready mayUse carries.mayReceive with ⟨next, conserved⟩
  have reception : relay.receiver.reception args reader state = ⟨passed, some event⟩ := by
    rw [HostFunction.reception, unread, Reception.of_append refused carries.takes]
  rcases conserved.delivers event (congrArg Reception.delivered? reception) with
    ⟨_, taken, took, told⟩
  have kept : relay.keep got.1 got.2.1 = loaded :=
    (congrArg (fun store => relay.keep got.1 store) told).trans (carries.loaded_eq took _)
  have back := distinct.sendBus_loaded within known.1 known.2
  rcases distinct.outgoing_loaded within carries known.1 (isExtended state.1) with
    ⟨success, made⟩
  have sends : after = (relay.sender.run facts caller
      (relay.sent.map (Operand.arg loaded)) (loaded, got.2.2)).2 := by
    rw [← kept]
    exact run_program facts caller relay state
  have pushed := @run_of_outgoing? facts caller mayUse _ _ (loaded, got.2.2) _ _ made
  dsimp only at pushed
  rw [back.2, distinct.frame_loaded within] at pushed
  have done : after = (loaded, { got.2.2 with output := (got.2.2.output.push event).2 }) := by
    rw [sends, pushed]
  have left : rest = got.2.2.input.unread reader := by
    have parts := conserved.parts
    rw [reception, unread, Reception.consumed, Option.toList_some, List.append_assoc] at parts
    exact List.tail_eq_of_cons_eq (List.append_cancel_left parts)
  have grown : (got.2.2.output.push event).2.events = got.2.2.output.events ++ [event] := by
    have one : ∀ other ∈ [event], other.isValid = true := List.forall_mem_singleton.mpr known.1
    exact (next.holds.pushAll next.grows one).events_eq
  have forwarded : got.2.2.output.events = state.2.output.events ++ passed := by
    rw [conserved.output, reception]
  rw [done]
  exact ⟨grown.trans (congrArg (· ++ [event]) forwarded), back.1, left.symm⟩

/-- A script that asks for all buses relays a note on bus five, as two numbers.  The message in
front of it is too long for numbers and goes on by itself. -/
theorem relay_reproduces_event_note :
    let long : MidiEvent := ⟨3, 1, Bytes.pack [240, 1, 2, 3, 247]⟩
    let note : MidiEvent := ⟨5, 7, Bytes.pack [149, 60, 100]⟩
    let relay : Relay := .packed ⟨0⟩ ⟨1⟩ ⟨2⟩
    let store := Machine.hosted.store.write .extendedMidiBus 1.0
    let state : HostFunction.State := (store,
      { input := (MidiLog.new 0 true).pushAll [long, note], output := MidiLog.new 0 true })
    let host : CodeHost Surroundings := { call := call {} { role := .audio, hasMidi := true } }
    let after := Code.run host relay.program state
    after.2.output.events = [long, note] ∧ after.2.input.unread .common = [] := by
  intro long note relay store state host after
  have asks : isExtended store = true := by decide +kernel
  have empty : (MidiLog.new 0 true).Holds [] := ⟨rfl, List.forall_mem_nil _⟩
  have holds : state.2.input.Holds [long, note] := by
    apply empty.pushAll rfl
    rintro event (_ | ⟨_, _ | ⟨_, ⟨⟩⟩⟩) <;> decide +kernel
  have parted : state.2.input.Parted .common [] [long, note] :=
    MidiLog.parted_of_zero holds (by decide +kernel)
  have unread : state.2.input.unread (.ofScript (isExtended state.1)) = [long] ++ note :: [] := by
    rw [asks]
    exact parted.unread_eq
  have within : relay.Within store := by
    have size : store.cells.size = HostVariable.all.length := by
      simp [store, Store.write, Store.set, Machine.hosted]
    refine ⟨Nat.le_of_eq size.symm, fun cell member => ?_⟩
    have inside : ∀ cell ∈ relay.cells, cell.index < HostVariable.all.length := by
      decide +kernel
    exact size ▸ inside cell member
  have distinct : relay.Distinct := by
    rw [Distinct]
    decide
  have law := relay_reproduces_event {} { role := .audio, hasMidi := true } relay state rfl
    (MidiLog.leadsTo_pushAll _ _) (.refl _) within distinct unread
    (List.forall_mem_singleton.mpr (by decide +kernel)) rfl
  rcases law with ⟨output, _, left⟩
  rw [asks] at left
  exact ⟨output.trans (congrArg (· ++ [long] ++ [note]) empty.events_eq), left⟩

end Relay
end EffectHost

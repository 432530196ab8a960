import EffectHost.Proofs.Host.UsedLogs
import Mathlib.Data.List.TakeWhile

/-!
# Reception conserves events

A call that receives reads on until it meets an event that it can take.  It passes on what it
meets before, so that every event that is read is either delivered or forwarded.  The reader
of a call is the common one or that of bus zero; as long as a script does not switch between
them, a sequence of calls cuts what is unread into parts, one for each call.
-/

namespace EffectHost

open MidiEvent MidiFunctions

namespace MidiLog

variable {log next : MidiLog} {reader : LogReader} {event : MidiEvent}
  {passed ahead : List MidiEvent} {capacity : Nat} {extensible : Bool}

/-- The events that a reader has not read yet: those ahead of its cursor that it is after. -/
def unread (log : MidiLog) (reader : LogReader) : List MidiEvent :=
  (log.aheadOf reader).filter reader.wants

/-- The log holds valid events, and the cursor of the reader stands between two of them. -/
def AtBorder (log : MidiLog) (reader : LogReader) : Prop :=
  ∃ passed ahead, log.Parted reader passed ahead

theorem Parted.unread_eq (parted : log.Parted reader passed ahead) :
    log.unread reader = ahead.filter reader.wants := by
  rw [unread, parted.aheadOf_eq]

/-- Every log in use holds valid events. -/
theorem holds_of_leadsTo (led : (MidiLog.new capacity extensible).LeadsTo log) :
    log.Holds log.events ∧ log.extensible = extensible := by
  rcases led with ⟨actions, rfl⟩
  have sound := LogHistory.sound_after (LogHistory.sound_fresh capacity extensible) actions
  have listed := LogHistory.events_of_sound sound
  exact ⟨⟨listed ▸ sound.bytes, listed ▸ sound.valid⟩, sound.extensible_eq⟩

/-- Every cursor of a log in use stands between two events. -/
theorem atBorder_of_leadsTo (known : reader.HasCursor)
    (led : (MidiLog.new capacity extensible).LeadsTo log) : log.AtBorder reader := by
  rcases led with ⟨actions, rfl⟩
  have fresh := LogHistory.sound_fresh capacity extensible
  have sound := LogHistory.sound_after fresh actions
  rcases LogHistory.placed_after known fresh (LogHistory.placed_fresh capacity extensible reader)
    actions with ⟨passed, ahead, cut⟩
  have bytes := sound.bytes.trans (congrArg records cut.split)
  exact ⟨passed, ahead, ⟨bytes, cut.split ▸ sound.valid⟩, cut.place⟩

/-- A reader that finds nothing has read everything. -/
theorem AtBorder.unread_of_none (border : log.AtBorder reader) (known : reader.HasCursor)
    (nothing : log.read? reader = none) : log.unread reader = [] := by
  rcases border with ⟨passed, ahead, parted⟩
  rw [parted.unread_eq]
  cases first : ahead.find? reader.wants with
  | none => exact List.filter_eq_nil_iff.mpr (List.find?_eq_none.mp first)
  | some event =>
      rcases LogReader.parts_of_find? first with ⟨skipped, rest, rfl, unwanted, wanted⟩
      rcases read?_eq_some known parted.allValid parted.drop unwanted wanted with
        ⟨after, found, _⟩
      cases nothing.symm.trans found

/-- A read takes the first event that is unread. -/
theorem AtBorder.unread_of_some (border : log.AtBorder reader) (known : reader.HasCursor)
    (read : log.read? reader = some (event, next)) :
    next.AtBorder reader ∧ event.isValid = true ∧
      log.unread reader = event :: next.unread reader := by
  rcases border with ⟨passed, ahead, parted⟩
  rcases parted.read_first known read with ⟨skipped, rest, rfl, unwanted, wanted, moved⟩
  refine ⟨⟨_, _, moved⟩, ?_, ?_⟩
  · exact parted.allValid event (List.mem_append_right _ List.mem_cons_self)
  · have foreign : skipped.filter reader.wants = [] := by
      apply List.filter_eq_nil_iff.mpr
      intro other member
      rw [unwanted other member]
      exact Bool.false_ne_true
    rw [parted.unread_eq, moved.unread_eq, List.filter_append, foreign, List.nil_append,
      List.filter_cons_of_pos wanted]

/-- What is unread is valid, and the reader is after it. -/
theorem AtBorder.of_mem_unread (border : log.AtBorder reader)
    (member : event ∈ log.unread reader) :
    event.isValid = true ∧ reader.wants event = true := by
  rcases border with ⟨passed, ahead, parted⟩
  rw [parted.unread_eq, List.mem_filter] at member
  exact ⟨parted.allValid event member.1, member.2⟩

end MidiLog

namespace MidiFunctions

/-- What a receiving call does with the events that are unread.  Those in front of the first
one that it accepts are pushed to the output, and that one is taken; the others stay unread. -/
theorem receiveFrom_reads (accept : Acceptance) (allBuses : Bool) (store : Store)
    {input : MidiLog} (border : input.AtBorder (.ofScript allBuses)) (output : MidiLog) :
    let done := receiveFrom accept allBuses store input output
    let refuses (event : MidiEvent) : Bool := (accept event store).isNone
    let unread := input.unread (.ofScript allBuses)
    done.2.2.1.AtBorder (.ofScript allBuses) ∧
      done.2.2.2 = output.pushAll (unread.takeWhile refuses) ∧
      done.2.2.1.unread (.ofScript allBuses) = (unread.dropWhile refuses).tail ∧
      match (unread.dropWhile refuses).head? with
      | none => done.1 = 0.0 ∧ done.2.1 = store
      | some event => ∃ taken, accept event store = some (done.1, taken) ∧
          done.2.1 =
            if allBuses then taken.write .midiBus (Float.ofNat event.bus.toNat) else taken := by
  have known := LogReader.hasCursor_ofScript allBuses
  fun_induction receiveFrom accept allBuses store input output with
  | case1 input output read =>
      rw [MidiLog.take?_eq_read?] at read
      have unread := border.unread_of_none known read
      simp only [unread, List.takeWhile_nil, List.dropWhile_nil]
      exact ⟨border, rfl, rfl, trivial, trivial⟩
  | case2 input output event rest read result taken accepted =>
      rw [MidiLog.take?_eq_read?] at read
      rcases border.unread_of_some known read with ⟨moved, _, unread⟩
      simp only [unread, List.takeWhile_cons, List.dropWhile_cons, accepted, Option.isNone_some,
        Bool.false_eq_true, if_false, List.tail_cons, List.head?_cons]
      exact ⟨moved, rfl, trivial, taken, rfl, rfl⟩
  | case3 input output event rest read refused ih =>
      rw [MidiLog.take?_eq_read?] at read
      rcases border.unread_of_some known read with ⟨moved, _, unread⟩
      simp only [unread, List.takeWhile_cons, List.dropWhile_cons, refused, Option.isNone_none,
        if_true]
      exact ih moved

end MidiFunctions

/-- The string of a number can be replaced. -/
def Strings.isWritable (strings : Strings) (id : Float) : Bool :=
  match key? id with
  | some key => key < userStrings || strings.texts.contains key
  | none => false

theorem Strings.isSome_set? (strings : Strings) (id : Float) (text : String) :
    (strings.set? id text).isSome = strings.isWritable id := by
  rw [set?, isWritable]
  cases key? id with
  | none => rfl
  | some key =>
      dsimp only
      split
      · next writable => rw [writable]; rfl
      · next fixed => rw [Bool.eq_false_iff.mpr fixed]; rfl

namespace HostFunction

open Number

/-- The arguments allow a function to receive. -/
def MayReceive (args : List Arg) : HostFunction → Prop
  | .midiReceive | .midiReceiveText => True
  | .midiReceiveMemory => ¬ argValue args 1 < 0.0 ∧ ¬ argValue args 2 < 0.0
  | _ => False

/-- A function can take an event with its arguments: a short message into variables, a
message of the size that the script asks for into memory, and any message into a string that
can be replaced. -/
def takes (function : HostFunction) (args : List Arg) (store : Store) (event : MidiEvent) :
    Bool :=
  match function with
  | .midiReceive => event.message.size ≤ 3
  | .midiReceiveMemory => event.message.size ≤ toNatural (argValue args 2)
  | .midiReceiveText => store.strings.isWritable (argValue args 1)
  | _ => false

/-- The result of a function and the store, once it has taken an event. -/
def taken? (function : HostFunction) (args : List Arg) (event : MidiEvent) (store : Store) :
    Option (Float × Store) :=
  (function.acceptance? args).bind fun accept => accept event store

/-- What is refused only for its size is refused unless it is small enough. -/
theorem isNone_of_limit {α : Type} (most size : Nat) (value : α) :
    (if most < size then none else some value).isNone = !(decide (size ≤ most)) := by
  split
  · next long => rw [decide_eq_false (Nat.not_le_of_lt long), Option.isNone_none, Bool.not_false]
  · next short => rw [decide_eq_true (Nat.le_of_not_lt short), Option.isNone_some, Bool.not_true]

theorem isNone_acceptShort (args : List Arg) (event : MidiEvent) (store : Store) :
    (acceptShort args event store).isNone = !(midiReceive.takes args store event) :=
  isNone_of_limit 3 event.message.size _

theorem isNone_acceptMemory (args : List Arg) (address : Nat) (event : MidiEvent)
    (store : Store) :
    (acceptMemory args address (toNatural (argValue args 2)) event store).isNone =
      !(midiReceiveMemory.takes args store event) :=
  isNone_of_limit (toNatural (argValue args 2)) event.message.size _

theorem isNone_acceptText (args : List Arg) (event : MidiEvent) (store : Store) :
    (acceptText args (argValue args 1) event store).isNone =
      !(midiReceiveText.takes args store event) := by
  rw [acceptText, takes, ← Strings.isSome_set? _ _ (textOfBytes event.message), Store.setString]
  cases store.strings.set? (argValue args 1) (textOfBytes event.message) <;> rfl

theorem acceptance?_midiReceiveMemory {args : List Arg}
    (may : midiReceiveMemory.MayReceive args) :
    midiReceiveMemory.acceptance? args = some (acceptMemory args
      (toNatural (argValue args 1)) (toNatural (argValue args 2))) := by
  have inRange : ¬(argValue args 1 < 0.0 ∨ argValue args 2 < 0.0) := not_or.mpr may
  exact if_neg (by simpa using inRange)

/-- A function that may receive accepts what it can take. -/
theorem exists_acceptance? {function : HostFunction} {args : List Arg}
    (may : function.MayReceive args) :
    ∃ accept, function.acceptance? args = some accept ∧
      ∀ event store, (accept event store).isNone = !(function.takes args store event) := by
  cases function with
  | midiReceive => exact ⟨_, rfl, isNone_acceptShort args⟩
  | midiReceiveMemory =>
      exact ⟨_, acceptance?_midiReceiveMemory may, isNone_acceptMemory args _⟩
  | midiReceiveText => exact ⟨_, rfl, isNone_acceptText args⟩
  | _ => cases may

theorem run_of_acceptance? {facts : Facts} {caller : Caller} {function : HostFunction}
    {args : List Arg} {accept : Acceptance} (accepts : function.acceptance? args = some accept)
    (mayUse : caller.mayUseMidi = true) (state : State) :
    function.run facts caller args state =
      let found := receiveFrom accept (isExtended state.1) state.1 state.2.input state.2.output
      (found.1, found.2.1, { state.2 with input := found.2.2.1, output := found.2.2.2 }) := by
  have received : receive caller (some accept) state =
      let found := receiveFrom accept (isExtended state.1) state.1 state.2.input state.2.output
      (found.1, found.2.1, { state.2 with input := found.2.2.1, output := found.2.2.2 }) := by
    rw [receive.eq_def]
    exact if_pos mayUse
  rw [← received, ← accepts]
  cases function <;> first | rfl | cases accepts

end HostFunction

/-- What becomes of the unread events in a call. -/
structure Reception where
  forwarded : List MidiEvent
  delivered? : Option MidiEvent

/-- The events that the call has read. -/
def Reception.consumed (reception : Reception) : List MidiEvent :=
  reception.forwarded ++ reception.delivered?.toList

/-- Those in front of the first event that can be taken go on, and that one is delivered. -/
def Reception.of (takes : MidiEvent → Bool) (unread : List MidiEvent) : Reception where
  forwarded := unread.takeWhile fun event => !takes event
  delivered? := unread.find? takes

/-- What is read and what stays unread make up the whole. -/
theorem Reception.consumed_append (takes : MidiEvent → Bool) (unread : List MidiEvent) :
    (Reception.of takes unread).consumed ++ (unread.dropWhile fun event => !takes event).tail =
      unread := by
  have parts : unread.takeWhile (fun event => !takes event) ++
      unread.dropWhile (fun event => !takes event) = unread := List.takeWhile_append_dropWhile
  rw [consumed, of, List.find?_eq_head?_dropWhile_not, List.append_assoc]
  refine Eq.trans (congrArg _ ?_) parts
  cases unread.dropWhile fun event => !takes event <;> rfl

/-- The input is at rest between two events, and the output holds events and can grow. -/
structure Surroundings.Ready (reader : LogReader) (around : Surroundings) : Prop where
  border : around.input.AtBorder reader
  holds : around.output.Holds around.output.events
  grows : around.output.extensible = true

/-- Logs in use are ready. -/
theorem Surroundings.ready_of_leadsTo {around : Surroundings} (extended : Bool)
    {inputCapacity outputCapacity : Nat} {inputExtensible : Bool}
    (input : (MidiLog.new inputCapacity inputExtensible).LeadsTo around.input)
    (output : (MidiLog.new outputCapacity true).LeadsTo around.output) :
    around.Ready (.ofScript extended) := by
  have held := MidiLog.holds_of_leadsTo output
  have known := LogReader.hasCursor_ofScript extended
  exact ⟨MidiLog.atBorder_of_leadsTo known input, held.1, held.2⟩

namespace HostFunction

/-- What becomes in a call of the events that are unread. -/
def reception (function : HostFunction) (args : List Arg) (reader : LogReader)
    (state : State) : Reception :=
  .of (function.takes args state.1) (state.2.input.unread reader)

/-- A call reads on up to the first event that it can take, whatever becomes of the events
that it pushes to the output. -/
structure Reads (function : HostFunction) (args : List Arg) (reader : LogReader)
    (before : State) (result : Float) (after : State) : Prop where
  /-- The unread events are those that the call reads and those that stay unread. -/
  parts : before.2.input.unread reader =
    (function.reception args reader before).consumed ++ after.2.input.unread reader
  /-- The forwarded events are pushed to the output, and nothing else is. -/
  output : after.2.output =
    before.2.output.pushAll (function.reception args reader before).forwarded
  /-- None of the forwarded events can be taken. -/
  refused : ∀ event ∈ (function.reception args reader before).forwarded,
    function.takes args before.1 event = false
  /-- If there is none to deliver, all of them are forwarded and the result is zero. -/
  nothing : (function.reception args reader before).delivered? = none →
    (function.reception args reader before).forwarded = before.2.input.unread reader ∧
      result = 0.0 ∧ after.1 = before.1
  /-- An event that is delivered can be taken, and the call does so. -/
  delivers : ∀ event, (function.reception args reader before).delivered? = some event →
    function.takes args before.1 event = true ∧
      ∃ taken, function.taken? args event before.1 = some (result, taken) ∧
        after.1 =
          if isExtended before.1 then taken.write .midiBus (Float.ofNat event.bus.toNat)
          else taken

/-- Every call reads so, and leaves the input at rest between two events. -/
theorem reads_run (facts : Facts) {caller : Caller} {function : HostFunction}
    {args : List Arg} {state : State}
    (border : state.2.input.AtBorder (.ofScript (isExtended state.1)))
    (mayUse : caller.mayUseMidi = true) (may : function.MayReceive args) :
    let reader := LogReader.ofScript (isExtended state.1)
    let done := function.run facts caller args state
    done.2.2.input.AtBorder reader ∧ function.Reads args reader state done.1 done.2 := by
  rcases exists_acceptance? may with ⟨accept, accepts, test⟩
  have refuses : (fun event => (accept event state.1).isNone) =
      fun event => !function.takes args state.1 event := funext fun event => test event _
  have found := receiveFrom_reads accept (isExtended state.1) state.1 border state.2.output
  dsimp only at found ⊢
  rw [run_of_acceptance? accepts mayUse]
  rw [refuses, ← List.find?_eq_head?_dropWhile_not] at found
  rcases found with ⟨rests, pushed, left, outcome⟩
  refine ⟨rests, ?_, pushed, ?_, ?_, ?_⟩
  · exact (Reception.consumed_append _ _).symm.trans (congrArg _ left.symm)
  · intro event member
    simpa using List.mem_takeWhile_imp member
  · intro absent
    rw [show List.find? _ _ = none from absent] at outcome
    refine ⟨?_, outcome⟩
    have none := List.find?_eq_none.mp absent
    exact List.takeWhile_eq_self_iff.mpr fun event member => by simpa using none event member
  · intro event delivered
    rw [show List.find? _ _ = some event from delivered] at outcome
    rcases outcome with ⟨taken, took, told⟩
    refine ⟨List.find?_some delivered, taken, ?_, told⟩
    rw [taken?, accepts, Option.bind_some]
    exact took

/-- A call forwards the unread events in front of the first one that it can take, delivers
that one, and leaves the others unread. -/
structure Conserves (function : HostFunction) (args : List Arg) (reader : LogReader)
    (before : State) (result : Float) (after : State) : Prop where
  /-- The unread events are those that the call reads and those that stay unread. -/
  parts : before.2.input.unread reader =
    (function.reception args reader before).consumed ++ after.2.input.unread reader
  /-- The output grows by the forwarded events and nothing else. -/
  output : after.2.output.events =
    before.2.output.events ++ (function.reception args reader before).forwarded
  /-- None of the forwarded events can be taken. -/
  refused : ∀ event ∈ (function.reception args reader before).forwarded,
    function.takes args before.1 event = false
  /-- If there is none to deliver, all of them are forwarded and the result is zero. -/
  nothing : (function.reception args reader before).delivered? = none →
    (function.reception args reader before).forwarded = before.2.input.unread reader ∧
      result = 0.0 ∧ after.1 = before.1
  /-- An event that is delivered can be taken, and the call does so. -/
  delivers : ∀ event, (function.reception args reader before).delivered? = some event →
    function.takes args before.1 event = true ∧
      ∃ taken, function.taken? args event before.1 = some (result, taken) ∧
        after.1 =
          if isExtended before.1 then taken.write .midiBus (Float.ofNat event.bus.toNat)
          else taken

/-- An output that can grow holds what is forwarded to it. -/
theorem holds_forwarded (function : HostFunction) (args : List Arg) {reader : LogReader}
    {state : State} (ready : state.2.Ready reader) :
    (state.2.output.pushAll (function.reception args reader state).forwarded).Holds
      (state.2.output.events ++ (function.reception args reader state).forwarded) := by
  refine ready.holds.pushAll ready.grows fun event member => ?_
  exact (ready.border.of_mem_unread ((List.takeWhile_prefix _).subset member)).1

/-- A call conserves events, and leaves everything ready for the next one. -/
theorem conserves_run (facts : Facts) {caller : Caller} {function : HostFunction}
    {args : List Arg} {state : State} (ready : state.2.Ready (.ofScript (isExtended state.1)))
    (mayUse : caller.mayUseMidi = true) (may : function.MayReceive args) :
    let reader := LogReader.ofScript (isExtended state.1)
    let done := function.run facts caller args state
    done.2.2.Ready reader ∧ function.Conserves args reader state done.1 done.2 := by
  intro reader done
  rcases reads_run facts ready.border mayUse may with ⟨border, reads⟩
  have holds := holds_forwarded function args ready
  rw [← reads.output] at holds
  have grows : done.2.2.output.extensible = true := by
    rw [reads.output, MidiLog.extensible_pushAll]
    exact ready.grows
  exact ⟨⟨border, holds.events_eq ▸ holds, grows⟩, reads.parts, holds.events_eq, reads.refused,
    reads.nothing, reads.delivers⟩

end HostFunction

/-! ## Sequences of calls -/

/-- A call of a receiving function, and what the script does before it with its variables,
memory and strings. -/
structure ReceivingCall where
  prepare : Store → Store := id
  function : HostFunction
  args : List Arg

namespace ReceivingCall

open HostFunction

/-- The state in which the function is called. -/
def start (call : ReceivingCall) (state : State) : State :=
  (call.prepare state.1, state.2)

/-- Carry out a call. -/
def perform (facts : Facts) (caller : Caller) (call : ReceivingCall) (state : State) :
    Float × State :=
  call.function.run facts caller call.args (call.start state)

/-- The state after calls, one after another. -/
def performAll (facts : Facts) (caller : Caller) (calls : List ReceivingCall) (state : State) :
    State :=
  calls.foldl (fun state call => (call.perform facts caller state).2) state

/-- At every call the script asks for all buses, or at none of them. -/
def KeepsReader (facts : Facts) (caller : Caller) (extended : Bool) :
    List ReceivingCall → State → Prop
  | [], _ => True
  | call :: others, state =>
    isExtended (call.start state).1 = extended ∧
      KeepsReader facts caller extended others (call.perform facts caller state).2

/-- What becomes of unread events in each call of a sequence. -/
def receptions (facts : Facts) (caller : Caller) (reader : LogReader) :
    List ReceivingCall → State → List Reception
  | [], _ => []
  | call :: others, state =>
    call.function.reception call.args reader (call.start state) ::
      receptions facts caller reader others (call.perform facts caller state).2

/-- A call conserves events. -/
def Conserves (facts : Facts) (caller : Caller) (reader : LogReader) (call : ReceivingCall)
    (state : State) : Prop :=
  let done := call.perform facts caller state
  call.function.Conserves call.args reader (call.start state) done.1 done.2

variable {facts : Facts} {caller : Caller} {extended : Bool} {call : ReceivingCall}
  {calls : List ReceivingCall} {state : State}

theorem keepsReader_append {front back : List ReceivingCall} :
    KeepsReader facts caller extended (front ++ back) state ↔
      KeepsReader facts caller extended front state ∧
        KeepsReader facts caller extended back (performAll facts caller front state) := by
  induction front generalizing state with
  | nil => exact (iff_of_eq (true_and _)).symm
  | cons first others ih =>
      rw [List.cons_append, KeepsReader, KeepsReader, ih, and_assoc]
      rfl

/-- What every call of a sequence reads adds up. -/
theorem reads_performAll (border : state.2.input.AtBorder (.ofScript extended))
    (mayUse : caller.mayUseMidi = true)
    (may : ∀ call ∈ calls, call.function.MayReceive call.args)
    (kept : KeepsReader facts caller extended calls state) :
    let reader := LogReader.ofScript extended
    let done := performAll facts caller calls state
    let receptions := receptions facts caller reader calls state
    done.2.input.AtBorder reader ∧
      state.2.input.unread reader =
        receptions.flatMap Reception.consumed ++ done.2.input.unread reader ∧
      done.2.output = state.2.output.pushAll (receptions.flatMap Reception.forwarded) := by
  induction calls generalizing state with
  | nil => exact ⟨border, rfl, rfl⟩
  | cons first others ih =>
      rcases List.forall_mem_cons.mp may with ⟨mayFirst, mayOthers⟩
      rcases kept with ⟨same, keptOthers⟩
      have begun : (first.start state).2.input.AtBorder
          (.ofScript (isExtended (first.start state).1)) := by
        rw [same]
        exact border
      have called := reads_run facts begun mayUse mayFirst
      rw [same] at called
      rcases called with ⟨next, reads⟩
      rcases ih next mayOthers keptOthers with ⟨last, unread, output⟩
      refine ⟨last, ?_, ?_⟩
      · rw [receptions, List.flatMap_cons, List.append_assoc]
        exact reads.parts.trans (congrArg _ unread)
      · rw [receptions, List.flatMap_cons, MidiLog.pushAll, List.foldl_append]
        refine output.trans ?_
        rw [perform, reads.output]
        rfl

/-- What is forwarded was unread, and so it is valid. -/
theorem valid_forwarded {reader : LogReader} (border : state.2.input.AtBorder reader)
    {receptions : List Reception} {left : List MidiEvent}
    (parts : state.2.input.unread reader = receptions.flatMap Reception.consumed ++ left) :
    AllValid (receptions.flatMap Reception.forwarded) := by
  intro event member
  rcases List.mem_flatMap.mp member with ⟨reception, called, forwarded⟩
  have consumed : event ∈ receptions.flatMap Reception.consumed :=
    List.mem_flatMap.mpr ⟨reception, called, List.mem_append_left _ forwarded⟩
  apply And.left
  apply border.of_mem_unread
  rw [parts]
  exact List.mem_append_left _ consumed

/-- What every call of a sequence does adds up. -/
theorem conserves_performAll (ready : state.2.Ready (.ofScript extended))
    (mayUse : caller.mayUseMidi = true)
    (may : ∀ call ∈ calls, call.function.MayReceive call.args)
    (kept : KeepsReader facts caller extended calls state) :
    let reader := LogReader.ofScript extended
    let done := performAll facts caller calls state
    let receptions := receptions facts caller reader calls state
    done.2.Ready reader ∧
      state.2.input.unread reader =
        receptions.flatMap Reception.consumed ++ done.2.input.unread reader ∧
      done.2.output.events = state.2.output.events ++ receptions.flatMap Reception.forwarded := by
  intro reader done receptions
  rcases reads_performAll ready.border mayUse may kept with ⟨border, unread, output⟩
  have holds := ready.holds.pushAll ready.grows (valid_forwarded ready.border unread)
  rw [← output] at holds
  have grows : done.2.output.extensible = true := by
    rw [output, MidiLog.extensible_pushAll]
    exact ready.grows
  exact ⟨⟨border, holds.events_eq ▸ holds, grows⟩, unread, holds.events_eq⟩

/-- Each call of a sequence conserves events. -/
theorem conserves_at (ready : state.2.Ready (.ofScript extended))
    (mayUse : caller.mayUseMidi = true)
    (may : ∀ call ∈ calls, call.function.MayReceive call.args)
    (kept : KeepsReader facts caller extended calls state) {front back : List ReceivingCall}
    (split : calls = front ++ call :: back) :
    Conserves facts caller (.ofScript extended) call (performAll facts caller front state) := by
  subst split
  rcases keepsReader_append.mp kept with ⟨keptFront, same, _⟩
  rcases List.forall_mem_append.mp may with ⟨mayFront, mayBack⟩
  have reached := (conserves_performAll ready mayUse mayFront keptFront).1
  have begun : (call.start (performAll facts caller front state)).2.Ready
      (.ofScript (isExtended (call.start (performAll facts caller front state)).1)) := by
    rw [same]
    exact reached
  have called := (conserves_run facts begun mayUse (List.forall_mem_cons.mp mayBack).1).2
  rw [same] at called
  exact called

/-- Receiving calls conserve events, with an output that can grow and as long as the script
does not switch between all buses and none.  Each of them forwards the unread events in front
of the first one that it can take, delivers that one, and leaves the others unread.  So what
was unread in the beginning is what the calls read, one after another, and what is unread in
the end, and the output has grown by what they forwarded. -/
theorem receptions_conserve_events (facts : Facts) (caller : Caller) (extended : Bool)
    (calls : List ReceivingCall) (state : State) (mayUse : caller.mayUseMidi = true)
    {inputCapacity outputCapacity : Nat} {inputExtensible : Bool}
    (input : (MidiLog.new inputCapacity inputExtensible).LeadsTo state.2.input)
    (output : (MidiLog.new outputCapacity true).LeadsTo state.2.output)
    (may : ∀ call ∈ calls, call.function.MayReceive call.args)
    (kept : KeepsReader facts caller extended calls state) :
    let reader := LogReader.ofScript extended
    let done := performAll facts caller calls state
    let receptions := receptions facts caller reader calls state
    state.2.input.unread reader =
        receptions.flatMap Reception.consumed ++ done.2.input.unread reader ∧
      done.2.output.events = state.2.output.events ++ receptions.flatMap Reception.forwarded ∧
      ∀ front call back, calls = front ++ call :: back →
        Conserves facts caller reader call (performAll facts caller front state) := by
  have ready := Surroundings.ready_of_leadsTo extended input output
  rcases conserves_performAll ready mayUse may kept with ⟨_, unread, grown⟩
  exact ⟨unread, grown, fun _ _ _ split => conserves_at ready mayUse may kept split⟩

/-- A script on bus zero asks for a short message, for one of up to four bytes, and for a
short one again.  It gets the second and the third event of its bus; the long one in front of
them goes on, and the event of another bus is not touched. -/
theorem receptions_conserve_events_three :
    let log : MidiLog := (MidiLog.new 0 true).pushAll
      [⟨0, 5, Bytes.pack [240, 1, 2, 3, 247]⟩, ⟨1, 6, Bytes.pack [144, 60, 100]⟩,
        ⟨0, 7, Bytes.pack [144, 61, 100]⟩, ⟨0, 9, Bytes.pack [1, 2, 3, 4]⟩]
    let state : State :=
      (Machine.hosted.store, { input := log, output := MidiLog.new 0 true })
    let calls : List ReceivingCall :=
      [{ function := .midiReceive, args := [] },
        { function := .midiReceiveMemory, args := [⟨0.0, none⟩, ⟨16.0, none⟩, ⟨4.0, none⟩] },
        { function := .midiReceive, args := [] }]
    let caller : Caller := { role := .audio, hasMidi := true }
    let done := performAll {} caller calls state
    let receptions := receptions {} caller (.onBus 0) calls state
    (receptions.map fun reception =>
        (reception.forwarded.map MidiEvent.offset, reception.delivered?.map MidiEvent.offset)) =
      [([5], some 7), ([], some 9), ([], none)] ∧
      log.unread (.onBus 0) =
        receptions.flatMap Reception.consumed ++ done.2.input.unread (.onBus 0) ∧
      done.2.output.events = receptions.flatMap Reception.forwarded := by
  intro log state calls caller done receptions
  have used : (MidiLog.new 0 true).LeadsTo log := MidiLog.leadsTo_pushAll _ _
  have may : ∀ call ∈ calls, call.function.MayReceive call.args := by
    refine List.forall_mem_cons.mpr ⟨trivial, List.forall_mem_cons.mpr ⟨?_, ?_⟩⟩
    · exact ⟨by decide +kernel, by decide +kernel⟩
    · exact List.forall_mem_singleton.mpr trivial
  have kept : KeepsReader {} caller false calls state :=
    ⟨by decide +kernel, by decide +kernel, by decide +kernel, trivial⟩
  have law := receptions_conserve_events {} caller false calls state rfl used (.refl _) may kept
  have empty : state.2.output.events = [] :=
    MidiLog.Holds.events_eq ⟨rfl, List.forall_mem_nil _⟩
  have grown := law.2.1
  rw [empty, List.nil_append] at grown
  exact ⟨by decide +kernel, law.1, grown⟩

end ReceivingCall
end EffectHost

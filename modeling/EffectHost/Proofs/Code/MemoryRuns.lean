import EffectHost.Proofs.Code.Backing
import EffectHost.Proofs.Code.Run

/-!
# Memory of a machine

The memory of a machine is known by accesses to it alone.  The host reads and writes ranges of it,
sets its limit and resets the machine, and code that runs reads and stores single values, while
the functions that it calls read and write ranges.  Everything that is learnt of memory in this way
is told by the accesses before.  A run fails if something is stored where no list reaches, and only
then.
-/

namespace EffectHost

open Code Number

/-! ## Records -/

/-- Accesses in the order in which they are made, each with what it results in. -/
abbrev MemoryRecord := List (Access × Access.Result)

namespace MemoryRecord

/-- The accesses, the latest of which stands in front, behind which are the earlier ones. -/
def past (record : MemoryRecord) (earlier : List Access) : List Access :=
  (record.map (·.1)).reverse ++ earlier

/-- The accesses alone. -/
def accesses (record : MemoryRecord) : List Access :=
  record.map (·.1)

/-- Something is stored where no list reaches. -/
def Overreaches (record : MemoryRecord) (earlier : List Access) : Prop :=
  Access.SomeOverreaches record.accesses earlier

theorem overreaches_append (first second : MemoryRecord) (earlier : List Access) :
    (first ++ second : MemoryRecord).Overreaches earlier ↔
      first.Overreaches earlier ∨ second.Overreaches (past first earlier) := by
  rw [Overreaches, accesses, List.map_append, Access.someOverreaches_append]
  rfl

theorem past_append (first second : MemoryRecord) (earlier : List Access) :
    past (first ++ second) earlier = past second (past first earlier) := by
  rw [past, past, past, List.map_append, List.reverse_append, List.append_assoc]

/-- Whatever is learnt is told by the accesses before. -/
def Faithful (record : MemoryRecord) (earlier : List Access) : Prop :=
  ∀ before access result behind, record = before ++ (access, result) :: behind →
    result = access.result (past before earlier)

/-- A record that leads to memory. -/
structure LeadsTo (record : MemoryRecord) (earlier : List Access) (memory : Memory) : Prop where
  faithful : record.Faithful earlier
  remembers : memory.Remembers (past record earlier)

namespace LeadsTo

variable {earlier : List Access} {memory : Memory}

theorem nil (remembers : memory.Remembers earlier) : LeadsTo [] earlier memory where
  faithful before access result behind split := by
    rcases List.append_eq_nil_iff.mp split.symm with ⟨_, none⟩
    cases none
  remembers := remembers

theorem append {first second : MemoryRecord} {middle : Memory}
    (front : LeadsTo first earlier middle)
    (back : middle.Remembers (past first earlier) → LeadsTo second (past first earlier) memory) :
    LeadsTo (first ++ second) earlier memory := by
  have back := back front.remembers
  refine ⟨fun before access result behind split => ?_, past_append first second _ ▸ back.remembers⟩
  rcases List.append_eq_append_iff.mp split with ⟨others, rfl, later⟩ | ⟨others, rfl, later⟩
  · rw [past_append]
    exact back.faithful others access result behind later
  · cases others with
    | nil =>
        have told := back.faithful [] access result behind later.symm
        rwa [List.append_nil] at told
    | cons entry others =>
        rcases List.cons.inj later with ⟨rfl, _⟩
        exact front.faithful before access result others rfl

/-- An access to memory that is remembered. -/
theorem access (remembers : memory.Remembers earlier) (access : Access) :
    LeadsTo [(access, memory.result access)] earlier (memory.after access) where
  faithful before other result behind split := by
    cases before with
    | nil =>
        cases split
        exact remembers.result_eq access
    | cons entry before =>
        rcases List.append_eq_nil_iff.mp (List.cons.inj split).2.symm with ⟨_, none⟩
        cases none
  remembers := remembers.step access

end LeadsTo

/-- A record without anything being forgotten, that leads from memory to other memory. -/
structure AddsTo (record : MemoryRecord) (earlier : List Access) (start memory : Memory) : Prop
    extends LeadsTo record earlier memory where
  held : memory.isHeld = true ↔ start.isHeld = true ∧ ¬ record.Overreaches earlier

namespace AddsTo

variable {earlier : List Access} {start memory : Memory}

theorem nil (remembers : memory.Remembers earlier) : AddsTo [] earlier memory memory where
  toLeadsTo := .nil remembers
  held := (and_iff_left id).symm

theorem append {first second : MemoryRecord} {middle : Memory}
    (front : AddsTo first earlier start middle)
    (back : middle.Remembers (past first earlier) →
      AddsTo second (past first earlier) middle memory) :
    AddsTo (first ++ second) earlier start memory where
  toLeadsTo := front.toLeadsTo.append fun remembers => (back remembers).toLeadsTo
  held := by
    rw [(back front.remembers).held, front.held, overreaches_append, not_or, and_assoc]

/-- An access that forgets nothing. -/
theorem access (remembers : memory.Remembers earlier) (access : Access)
    (keeps : access.forgets = false) :
    AddsTo [(access, memory.result access)] earlier memory (memory.after access) where
  toLeadsTo := .access remembers access
  held := by
    rw [remembers.isHeld_after keeps, Overreaches, accesses, List.map_singleton,
      Access.someOverreaches_singleton]

end AddsTo
end MemoryRecord

open MemoryRecord

/-! ## Functions of the host -/

/-- What a function does to memory, one access after another, until it is done. -/
inductive Visit (β : Type) where
  | done (result : β)
  /-- Fill a buffer with the values from an address on. -/
  | read (address : UInt64) (count : Nat) (next : Nat × List Float → Visit β)
  | write (address : UInt64) (values : Array Float) (next : Nat → Visit β)

namespace Visit

variable {β : Type}

/-- What a function leaves, and memory afterwards. -/
def run : Visit β → Memory → β × Memory
  | .done result, memory => (result, memory)
  | .read address count next, memory => (next (memory.fill address.toNat count)).run memory
  | .write address values next, memory =>
    let written := memory.writeRange address.toNat values
    (next written.1).run written.2

/-- What is learnt of memory. -/
def record : Visit β → Memory → MemoryRecord
  | .done _, _ => []
  | .read address count next, memory =>
    let filled := memory.fill address.toNat count
    (.read address count, .filled filled.1 filled.2) :: (next filled).record memory
  | .write address values next, memory =>
    let written := memory.writeRange address.toNat values
    (.write address values, .stored written.1) :: (next written.1).record written.2

theorem record_addsTo (visit : Visit β) {memory : Memory} {earlier : List Access}
    (remembers : memory.Remembers earlier) :
    AddsTo (visit.record memory) earlier memory (visit.run memory).2 := by
  induction visit generalizing memory earlier with
  | done result => exact .nil remembers
  | read address count next ih =>
      have filled := AddsTo.access remembers (.read address count) rfl
      exact filled.append (ih _)
  | write address values next ih =>
      have written := AddsTo.access remembers (.write address values) rfl
      exact written.append (ih _)

end Visit

/-- Functions of a host that know memory by accesses alone.  What they do may depend on all cells
and strings and on a state of the host, and they may leave others. -/
structure Visitor (σ : Type) where
  visit : String → List Arg → Array Float → Strings → σ →
    Visit (Option Float × Array Float × Strings × σ)

namespace Visitor

variable {σ : Type} (visitor : Visitor σ)

/-- What a call does. -/
def visitOf (name : String) (args : List Arg) (state : Store × σ) :
    Visit (Option Float × Array Float × Strings × σ) :=
  visitor.visit name args state.1.cells state.1.strings state.2

/-- The host with these functions. -/
def host : CodeHost σ where
  call name args state :=
    let (left, memory) := (visitor.visitOf name args state).run state.1.memory
    let (result, cells, strings, outer) := left
    (result, { cells, memory, strings }, outer)

/-! ## Programs -/

mutual

/-- What is learnt of memory when an expression is evaluated. -/
def record : Expr Cell Nat → Store × σ → MemoryRecord
  | .number _, _ | .text _, _ | .variable _, _ => []
  | .item base index, state =>
    let first := eval visitor.host base state
    let second := eval visitor.host index first.2
    record base state ++ (record index first.2 ++
      [(.load (first.1 + second.1), .value (eval visitor.host (.item base index) state).1)])
  | .negate operand, state => record operand state
  | .binary _ left right, state =>
    record left state ++ record right (eval visitor.host left state).2
  | .call function arguments, state =>
    let values := evalArgs visitor.host arguments state
    recordArgs arguments state ++
      (visitor.visitOf function values.1 values.2).record values.2.1.memory
  | .assign _ value, state => record value state
  | .assignItem base index value, state =>
    let first := eval visitor.host base state
    let second := eval visitor.host index first.2
    let third := eval visitor.host value second.2
    record base state ++ (record index first.2 ++ (record value second.2 ++
      [(.store (first.1 + second.1) third.1, .nothing)]))
termination_by structural expression => expression

/-- What is learnt of memory when arguments are evaluated. -/
def recordArgs : List (Expr Cell Nat) → Store × σ → MemoryRecord
  | [], _ => []
  | argument :: others, state =>
    record argument state ++ recordArgs others (eval visitor.host argument state).2
termination_by structural arguments => arguments

end

/-- What is learnt of memory when a program runs. -/
def recordRun : Program → Store × σ → MemoryRecord
  | [], _ => []
  | statement :: others, state =>
    visitor.record statement state ++ recordRun others (eval visitor.host statement state).2

theorem memory_writeItem (store : Store) (position value : Float) :
    (store.writeItem position value).memory = store.memory.after (.store position value) := by
  rw [Store.writeItem, Memory.after]
  cases Memory.writeAddress? position <;> rfl

theorem result_load (store : Store) (position : Float) :
    store.memory.result (.load position) = .value (store.readItem position) := by
  rw [Store.readItem, Memory.result]
  cases Memory.readAddress? position <;> rfl

mutual

theorem record_addsTo : ∀ (expression : Expr Cell Nat) (state : Store × σ)
    {earlier : List Access}, state.1.memory.Remembers earlier →
      AddsTo (visitor.record expression state) earlier state.1.memory
        (eval visitor.host expression state).2.1.memory
  | .number _, _, _, remembers | .text _, _, _, remembers | .variable _, _, _, remembers =>
      .nil remembers
  | .item base index, state, earlier, remembers => by
      refine (record_addsTo base state remembers).append fun remembers => ?_
      refine (record_addsTo index _ remembers).append fun remembers => ?_
      have loaded := AddsTo.access remembers
        (.load ((eval visitor.host base state).1 +
          (eval visitor.host index (eval visitor.host base state).2).1)) rfl
      rw [result_load] at loaded
      exact loaded
  | .negate operand, state, _, remembers => record_addsTo operand state remembers
  | .binary _ left right, state, _, remembers =>
      (record_addsTo left state remembers).append (record_addsTo right _)
  | .call function arguments, state, _, remembers =>
      (recordArgs_addsTo arguments state remembers).append
        ((visitor.visitOf function _ _).record_addsTo)
  | .assign _ value, state, _, remembers => record_addsTo value state remembers
  | .assignItem base index value, state, _, remembers => by
      refine (record_addsTo base state remembers).append fun remembers => ?_
      refine (record_addsTo index _ remembers).append fun remembers => ?_
      refine (record_addsTo value _ remembers).append fun remembers => ?_
      have stored := AddsTo.access remembers
        (.store ((eval visitor.host base state).1 +
          (eval visitor.host index (eval visitor.host base state).2).1)
          (eval visitor.host value (eval visitor.host index
            (eval visitor.host base state).2).2).1) rfl
      rw [← memory_writeItem] at stored
      exact stored

theorem recordArgs_addsTo : ∀ (arguments : List (Expr Cell Nat)) (state : Store × σ)
    {earlier : List Access}, state.1.memory.Remembers earlier →
      AddsTo (visitor.recordArgs arguments state) earlier state.1.memory
        (evalArgs visitor.host arguments state).2.1.memory
  | [], _, _, remembers => .nil remembers
  | argument :: others, state, _, remembers => by
      rw [evalArgs_cons_snd]
      exact (record_addsTo argument state remembers).append (recordArgs_addsTo others _)

end

theorem recordRun_addsTo (program : Program) (state : Store × σ) {earlier : List Access}
    (remembers : state.1.memory.Remembers earlier) :
    AddsTo (visitor.recordRun program state) earlier state.1.memory
      (run visitor.host program state).1.memory := by
  induction program generalizing state earlier with
  | nil => exact .nil remembers
  | cons statement others ih =>
      exact (visitor.record_addsTo statement state remembers).append (ih _)

end Visitor

/-! ## Machines -/

/-- What is done to a machine. -/
inductive MachineStep where
  | read (address : UInt64) (count : Nat)
  | write (address : UInt64) (values : Array Float)
  | limit (slots : UInt64)
  | reset
  | run (program : Program)

namespace MachineStep

variable {σ : Type} (visitor : Visitor σ)

/-- The machine after a step, with what the host keeps. -/
def act : MachineStep → Machine × σ → Machine × σ
  | .read _ _, state => state
  | .write address values, (machine, outer) =>
    ({ machine with store := (machine.store.writeRange address.toNat values).2 }, outer)
  | .limit slots, (machine, outer) => (machine.setMemoryLimit slots.toNat, outer)
  | .reset, (machine, outer) => (machine.reset, outer)
  | .run program, (machine, outer) =>
    let ran := Code.run visitor.host program (machine.store, outer)
    ({ machine with store := ran.1 }, ran.2)

/-- The machine after a step that does not fail. -/
def act? (step : MachineStep) (state : Machine × σ) : Option (Machine × σ) :=
  (step.act visitor state).1.held?.map (·, (step.act visitor state).2)

/-- The machine after several steps none of which fails. -/
def actAll? (steps : List MachineStep) (state : Machine × σ) : Option (Machine × σ) :=
  steps.foldlM (fun state step => step.act? visitor state) state

/-- What is learnt of memory in a step. -/
def record : MachineStep → Machine × σ → MemoryRecord
  | .read address count, (machine, _) =>
    let filled := machine.store.memory.fill address.toNat count
    [(.read address count, .filled filled.1 filled.2)]
  | .write address values, (machine, _) =>
    [(.write address values, .stored (machine.store.writeRange address.toNat values).1)]
  | .limit slots, _ => [(.limit slots, .nothing)]
  | .reset, _ => [(.clear, .nothing)]
  | .run program, (machine, outer) => visitor.recordRun program (machine.store, outer)

/-- What is learnt of memory in several steps, as if none failed. -/
def recordAll : List MachineStep → Machine × σ → MemoryRecord
  | [], _ => []
  | step :: others, state => step.record visitor state ++ recordAll others (step.act visitor state)

theorem record_leadsTo (step : MachineStep) (state : Machine × σ) {earlier : List Access}
    (remembers : state.1.store.memory.Remembers earlier) :
    LeadsTo (step.record visitor state) earlier (step.act visitor state).1.store.memory := by
  cases step with
  | read address count => exact .access remembers (.read address count)
  | write address values => exact .access remembers (.write address values)
  | limit slots => exact .access remembers (.limit slots)
  | reset => exact .access remembers .clear
  | run program =>
      exact (visitor.recordRun_addsTo program (state.1.store, state.2) remembers).toLeadsTo

/-- A step that stores nothing where no list reaches leaves memory that a list can hold, and no
other step does. -/
theorem isHeld_act (step : MachineStep) (state : Machine × σ) {earlier : List Access}
    (remembers : state.1.store.memory.Remembers earlier)
    (held : state.1.store.memory.isHeld = true) :
    (step.act visitor state).1.store.memory.isHeld = true ↔
      ¬ (step.record visitor state).Overreaches earlier := by
  have adds {record : MemoryRecord} {memory : Memory}
      (added : AddsTo record earlier state.1.store.memory memory) :
      memory.isHeld = true ↔ ¬ record.Overreaches earlier :=
    added.held.trans (and_iff_right held)
  have forgets {access : Access} {result : Access.Result} {memory : Memory}
      (nowhere : ¬ access.Overreaches earlier)
      (fewer : ∀ address ∈ memory.slots, address ∈ state.1.store.memory.slots) :
      memory.isHeld = true ↔
        ¬ MemoryRecord.Overreaches [(access, result)] earlier := by
    refine iff_of_true ?_ (mt Access.someOverreaches_singleton.mp nowhere)
    rw [Memory.isHeld_iff] at held ⊢
    exact fun address member => held address (fewer address member)
  cases step with
  | read address count => exact adds (.access remembers (.read address count) rfl)
  | write address values => exact adds (.access remembers (.write address values) rfl)
  | limit slots =>
      refine forgets (fun ⟨_, _, stores⟩ => stores) fun address member => ?_
      exact (Std.HashMap.mem_filter.mp member).1
  | reset =>
      refine forgets (fun ⟨_, _, stores⟩ => stores) fun address member => ?_
      exact absurd member Std.HashMap.not_mem_empty
  | run program =>
      exact adds (visitor.recordRun_addsTo program (state.1.store, state.2) remembers)

theorem recordAll_leadsTo (steps : List MachineStep) (state : Machine × σ)
    {earlier : List Access} (remembers : state.1.store.memory.Remembers earlier) :
    LeadsTo (recordAll visitor steps state) earlier
      (steps.foldl (fun state step => step.act visitor state) state).1.store.memory := by
  induction steps generalizing state earlier with
  | nil => exact .nil remembers
  | cons step others ih => exact (step.record_leadsTo visitor state remembers).append (ih _)

/-- Several steps fail where something is stored where no list reaches, and else none does. -/
theorem actAll?_cases (steps : List MachineStep) (state : Machine × σ) {earlier : List Access}
    (remembers : state.1.store.memory.Remembers earlier)
    (held : state.1.store.memory.isHeld = true) :
    ((recordAll visitor steps state).Overreaches earlier ∧
        actAll? visitor steps state = none) ∨
      (¬ (recordAll visitor steps state).Overreaches earlier ∧
        actAll? visitor steps state =
          some (steps.foldl (fun state step => step.act visitor state) state)) := by
  induction steps generalizing state earlier with
  | nil => exact .inr ⟨id, rfl⟩
  | cons step others ih =>
      have front := step.record_leadsTo visitor state remembers
      have near := step.isHeld_act visitor state remembers held
      rw [recordAll, overreaches_append, actAll?, List.foldlM_cons, act?, Machine.held?]
      by_cases kept : (step.act visitor state).1.store.memory.isHeld = true
      · rw [if_pos kept, Option.map_some]
        rcases ih _ front.remembers kept with ⟨later, failed⟩ | ⟨never, reached⟩
        · exact .inl ⟨.inr later, failed⟩
        · exact .inr ⟨not_or.mpr ⟨near.mp kept, never⟩, reached⟩
      · rw [if_neg kept]
        exact .inl ⟨.inl (not_not.mp (mt near.mpr kept)), rfl⟩

end MachineStep

/-- Memory is a map from addresses to values.  A run of a machine fails exactly if something is
stored where no list reaches, which takes a limit beyond the longest list.  Until then, whatever is
learnt of memory is what was stored last and not forgotten since, and zero elsewhere, and values
that are written go to the slots below the limit and to no others.  A list that grows as it is used,
and is never longer than the limit, fails for the same accesses and results in the same. -/
theorem memory_refines_map {σ : Type} (visitor : Visitor σ) (steps : List MachineStep)
    (outer : σ) :
    let record := MachineStep.recordAll visitor steps ({}, outer)
    let run? := MachineStep.actAll? visitor steps ({}, outer)
    (run? = none ↔ record.Overreaches []) ∧
    (∀ (past : List Access) (access : Access),
      access.Overreaches past → longestList < limitOf past) ∧
    (∀ before access result behind, record = before ++ (access, result) :: behind →
      ¬ MemoryRecord.Overreaches (before ++ [(access, result)]) [] →
        result = access.result (past before [])) ∧
    (∀ state, run? = some state →
      let memory := state.1.store.memory
      (memory.limit = limitOf (past record []) ∧
        ∀ address, memory.read address = remembered (past record []) address) ∧
      (∀ address ∈ memory.slots, address < memory.limit) ∧
      ∀ (address : UInt64) (values : Array Float) (next : Machine × σ),
        (MachineStep.write address values).act? visitor state = some next →
          ∀ place, next.1.store.memory.read place =
            if address.toNat ≤ place ∧
                place < address.toNat + min values.size (memory.limit - address.toNat) then
              values.getD (place - address.toNat) 0.0
            else memory.read place) ∧
    ∀ accesses : List Access,
      (Backing.accessAll? accesses {} = none ↔ Access.SomeOverreaches accesses []) ∧
      ∀ backing, Backing.accessAll? accesses {} = some backing →
        backing.limit = limitOf accesses.reverse ∧ backing.slots.length ≤ backing.limit ∧
        ∀ access : Access, ¬ access.Overreaches accesses.reverse →
          (backing.access? access).map (·.1) = some (access.result accesses.reverse) := by
  intro record run?
  have leads := MachineStep.recordAll_leadsTo visitor steps ({}, outer) Memory.remembers_nil
  have ran := MachineStep.actAll?_cases visitor steps ({}, outer) Memory.remembers_nil
    Memory.isHeld_empty
  refine ⟨?_, fun past access far => ?_, fun before access result behind split _ =>
    leads.faithful before access result behind split, fun state reached => ?_, fun accesses => ?_⟩
  · rcases ran with ⟨far, failed⟩ | ⟨near, reached⟩
    · exact iff_of_true failed far
    · refine iff_of_false (fun failed => ?_) near
      cases reached.symm.trans failed
  · exact Nat.lt_of_not_le fun near => Access.not_overreaches_of_limitOf_le near access far
  · rcases ran with ⟨_, failed⟩ | ⟨_, done⟩
    · cases reached.symm.trans failed
    · cases reached.symm.trans done
      refine ⟨⟨leads.remembers.limit, leads.remembers.read⟩, leads.remembers.inside, ?_⟩
      intro address values next written place
      rcases Option.map_eq_some_iff.mp written with ⟨machine, held, rfl⟩
      rw [Machine.held?] at held
      split at held
      · cases held
        refine (Memory.read_writeRange _ address.toNat values place).trans ?_
        rw [placed, Array.length_toList, List.getD_eq_getElem?_getD, Array.getElem?_toList,
          ← Array.getD_eq_getD_getElem?]
      · cases held
  · rcases Backing.remembers_nil.accessAll?_cases accesses with
      ⟨far, failed⟩ | ⟨near, last, reached, remembers⟩
    · refine ⟨iff_of_true failed far, fun backing done => ?_⟩
      cases done.symm.trans failed
    · refine ⟨iff_of_false (fun failed => ?_) near, fun backing done => ?_⟩
      · cases reached.symm.trans failed
      · cases done.symm.trans reached
        rw [List.append_nil] at remembers
        refine ⟨remembers.limit, remembers.size, fun access within => ?_⟩
        rcases remembers.access?_eq_some within with ⟨next, accessed, _⟩
        rw [accessed]
        rfl

/-- A value past a limit that is set and taken back again is gone. -/
theorem memory_refines_map_cut :
    let visitor : Visitor Unit :=
      ⟨fun _ _ cells strings outer => .done (none, cells, strings, outer)⟩
    let steps : List MachineStep :=
      [.limit 4, .write 2 #[5.0, 6.0, 7.0], .limit 3, .limit 4, .read 2 3]
    (MachineStep.actAll? visitor steps ({}, ())).isSome = true ∧
      MachineStep.recordAll visitor steps ({}, ()) =
        [(.limit 4, .nothing), (.write 2 #[5.0, 6.0, 7.0], .stored 2), (.limit 3, .nothing),
          (.limit 4, .nothing), (.read 2 3, .filled 2 [5.0, 0.0, 0.0])] := by
  intro visitor steps
  let accesses : List Access :=
    [.limit 4, .write 2 #[5.0, 6.0, 7.0], .limit 3, .limit 4, .read 2 3]
  have near : ¬ Access.SomeOverreaches accesses [] := by
    rintro (far | far | far | far | far | none)
    case inr.inr.inr.inr.inr => exact none
    all_goals exact Access.not_overreaches_of_limitOf_le (by decide) _ far
  let before : MemoryRecord :=
    [(.limit 4, .nothing), (.write 2 #[5.0, 6.0, 7.0], .stored 2), (.limit 3, .nothing),
      (.limit 4, .nothing)]
  rcases memory_refines_map visitor steps () with ⟨fails, _, told, _⟩
  have last := told before (.read 2 3) _ [] rfl near
  refine ⟨Option.isSome_iff_ne_none.mpr (mt fails.mp near), ?_⟩
  exact congrArg (fun result => before ++ [(.read 2 3, result)]) last

/-- There is room below the limit, but no list reaches there. -/
theorem memory_fails_past_longest_list :
    let visitor : Visitor Unit :=
      ⟨fun _ _ cells strings outer => .done (none, cells, strings, outer)⟩
    let slots : UInt64 := 4611686018427387904
    let far : UInt64 := 2305843009213693952
    Access.result [.limit slots] (.write far #[1.0]) = .stored 1 ∧
      MachineStep.actAll? visitor [.limit slots, .write far #[1.0]] ({}, ()) = none ∧
      Backing.accessAll? [.limit slots, .write far #[1.0]] {} = none := by
  intro visitor slots far
  have overreaches : Access.SomeOverreaches [.limit slots, .write far #[1.0]] [] := by
    refine .inr (.inl ⟨far.toNat, by decide, ?_⟩)
    exact ⟨Nat.le_refl _, by decide⟩
  refine ⟨congrArg Access.Result.stored (by decide +kernel), ?_, ?_⟩
  · rcases MachineStep.actAll?_cases visitor [.limit slots, .write far #[1.0]] ({}, ())
      Memory.remembers_nil Memory.isHeld_empty with ⟨_, failed⟩ | ⟨near, _⟩
    · exact failed
    · exact absurd overreaches near
  · rcases Backing.remembers_nil.accessAll?_cases [.limit slots, .write far #[1.0]] with
      ⟨_, failed⟩ | ⟨near, _⟩
    · exact failed
    · exact absurd overreaches near

end EffectHost

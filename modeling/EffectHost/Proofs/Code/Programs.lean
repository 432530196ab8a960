import EffectHost.Code.Run

/-!
# The programs of a machine

Whether code compiles is decided by the code alone; where it does, the machine gains one
program under the next free number, and otherwise none.  Names, texts and memory come and
go without touching the programs.  In every state that a machine can reach the numbers of
its programs are below the next free one, so that a new program never takes the place of
an old one.
-/

namespace EffectHost

open Code

/-- The fault because of which code does not compile, if there is one. -/
def Code.fault? (source : String) : Option Fault :=
  match Token.scan source with
  | .error fault => some fault
  | .ok tokens =>
    match program tokens with
    | .ok _ => none
    | .error stop => some ⟨stop.line tokens, stop.cause⟩

/-- The statements of code, if it can be read. -/
def Code.statements? (source : String) : Option (List SourceExpr) :=
  match Token.scan source with
  | .ok tokens => (program tokens).toOption
  | .error _ => none

namespace Machine

/-! ## What linking keeps -/

/-- What holds between a machine and what it becomes whenever names and texts are made known to
it one by one. -/
structure KeptByLinking (resolve : String → Option Cell) (kept : Machine → Machine → Prop) :
    Prop where
  refl : ∀ machine, kept machine machine
  trans : ∀ {first second third}, kept first second → kept second third → kept first third
  link : ∀ machine name, kept machine (machine.link resolve name).2
  addLiteral : ∀ machine text, kept machine (machine.addLiteral text).2

namespace KeptByLinking

variable {resolve : String → Option Cell} {kept : Machine → Machine → Prop}

mutual

theorem linkExpr (keeps : KeptByLinking resolve kept) :
    ∀ (expression : SourceExpr) (machine : Machine),
      kept machine (Machine.linkExpr resolve expression machine).2
  | .number _, machine => keeps.refl machine
  | .text content, machine => keeps.addLiteral machine content
  | .variable name, machine => keeps.link machine name
  | .item base index, machine =>
      keeps.trans (keeps.linkExpr base machine) (keeps.linkExpr index _)
  | .negate operand, machine => keeps.linkExpr operand machine
  | .binary _ left right, machine =>
      keeps.trans (keeps.linkExpr left machine) (keeps.linkExpr right _)
  | .call _ arguments, machine => keeps.linkAll arguments machine
  | .assign name value, machine =>
      keeps.trans (keeps.link machine name) (keeps.linkExpr value _)
  | .assignItem base index value, machine =>
      keeps.trans (keeps.trans (keeps.linkExpr base machine) (keeps.linkExpr index _))
        (keeps.linkExpr value _)

theorem linkAll (keeps : KeptByLinking resolve kept) :
    ∀ (expressions : List SourceExpr) (machine : Machine),
      kept machine (Machine.linkAll resolve expressions machine).2
  | [], machine => keeps.refl machine
  | first :: others, machine =>
      keeps.trans (keeps.linkExpr first machine) (keeps.linkAll others _)

end

theorem noteTokens (keeps : KeptByLinking resolve kept) (tokens : List Token)
    (machine : Machine) : kept machine (Machine.noteTokens resolve tokens machine) := by
  induction tokens generalizing machine with
  | nil => exact keeps.refl machine
  | cons token rest ih =>
      rw [Machine.noteTokens]
      split
      · next name _ =>
          split
          · exact ih machine
          · exact keeps.trans (keeps.link machine name) (ih _)
      · next content _ => exact keeps.trans (keeps.addLiteral machine content) (ih _)
      · exact ih machine

end KeptByLinking

/-! ## Linking -/

/-- One machine has the programs of another, and would number the next one alike. -/
structure SamePrograms (before after : Machine) : Prop where
  programs : after.code.programs = before.code.programs
  nextProgram : after.code.nextProgram = before.code.nextProgram

namespace SamePrograms

theorem refl (machine : Machine) : SamePrograms machine machine :=
  ⟨rfl, rfl⟩

theorem trans {first second third : Machine} (left : SamePrograms first second)
    (right : SamePrograms second third) : SamePrograms first third :=
  ⟨right.programs.trans left.programs, right.nextProgram.trans left.nextProgram⟩

end SamePrograms

theorem samePrograms_cellOf (machine : Machine) (name : String) :
    SamePrograms machine (machine.cellOf name).2 := by
  rw [cellOf]
  split
  · exact SamePrograms.refl machine
  · exact ⟨rfl, rfl⟩

theorem samePrograms_link (resolve : String → Option Cell) (machine : Machine)
    (name : String) : SamePrograms machine (machine.link resolve name).2 := by
  rw [link]
  split
  · exact SamePrograms.refl machine
  · exact samePrograms_cellOf machine name

theorem samePrograms_addLiteral (machine : Machine) (text : String) :
    SamePrograms machine (machine.addLiteral text).2 :=
  ⟨rfl, rfl⟩

theorem samePrograms_keptByLinking (resolve : String → Option Cell) :
    KeptByLinking resolve SamePrograms where
  refl := SamePrograms.refl
  trans := SamePrograms.trans
  link := samePrograms_link resolve
  addLiteral := samePrograms_addLiteral

/-- Linking makes cells and texts, and no program. -/
theorem samePrograms_linkAll (resolve : String → Option Cell) (expressions : List SourceExpr)
    (machine : Machine) : SamePrograms machine (linkAll resolve expressions machine).2 :=
  (samePrograms_keptByLinking resolve).linkAll expressions machine

/-! ## Compiling -/

/-- What compiling answers does not depend on what the machine holds. -/
theorem compile_fst (machine : Machine) (source : String)
    (resolve : String → Option Cell) :
    (machine.compile source resolve).1 =
      match fault? source with
      | some fault => .error fault
      | none => .ok machine.code.nextProgram := by
  rw [compile, fault?]
  cases Token.scan source with
  | error fault => rfl
  | ok tokens =>
      dsimp only
      cases program tokens with
      | error stop => rfl
      | ok statements =>
          exact congrArg Except.ok (samePrograms_linkAll resolve statements machine).nextProgram

theorem fault?_of_ok {machine : Machine} {source : String}
    {resolve : String → Option Cell} {id : Nat}
    (compiled : (machine.compile source resolve).1 = .ok id) : fault? source = none := by
  rw [compile_fst] at compiled
  cases found : fault? source with
  | none => rfl
  | some fault =>
      rw [found] at compiled
      cases compiled

theorem fault?_of_error {machine : Machine} {source : String}
    {resolve : String → Option Cell} {fault : Fault}
    (failed : (machine.compile source resolve).1 = .error fault) :
    fault? source = some fault := by
  rw [compile_fst] at failed
  cases found : fault? source with
  | none =>
      rw [found] at failed
      cases failed
  | some known =>
      rw [found] at failed
      cases failed
      rfl

/-- Code that does not compile adds no program. -/
theorem samePrograms_compile {machine next : Machine} {source : String}
    {resolve : String → Option Cell} {fault : Fault}
    (failed : machine.compile source resolve = (.error fault, next)) :
    SamePrograms machine next := by
  rw [compile] at failed
  split at failed
  · cases failed
    exact SamePrograms.refl machine
  · split at failed
    · cases failed
    · cases failed
      exact (samePrograms_keptByLinking resolve).noteTokens _ machine

/-- Code that compiles becomes the program that linking its statements gives. -/
theorem compile_eq_ok {machine next : Machine} {source : String}
    {resolve : String → Option Cell} {id : Nat}
    (compiled : machine.compile source resolve = (.ok id, next)) :
    ∃ statements, statements? source = some statements ∧
      (linkAll resolve statements machine).2.addProgram (linkAll resolve statements machine).1 =
        (id, next) := by
  rw [compile] at compiled
  rw [statements?]
  split at compiled
  · cases compiled
  · next tokens scanned =>
      split at compiled
      · next statements read =>
          cases compiled
          refine ⟨statements, ?_, rfl⟩
          rw [scanned]
          exact congrArg Except.toOption read
      · cases compiled

/-- Code that compiles adds one program, under the next free number. -/
theorem compile_adds {machine next : Machine} {source : String}
    {resolve : String → Option Cell} {id : Nat}
    (compiled : machine.compile source resolve = (.ok id, next)) :
    id = machine.code.nextProgram ∧ next.code.nextProgram = id + 1 ∧
      ∃ program, next.code.programs = machine.code.programs.insert id program := by
  rcases compile_eq_ok compiled with ⟨statements, _, added⟩
  have linked := samePrograms_linkAll resolve statements machine
  cases added
  refine ⟨linked.nextProgram, rfl, (linkAll resolve statements machine).1, ?_⟩
  rw [← linked.programs]

/-! ## Giving programs up -/

@[simp] theorem store_freeAll (machine : Machine) (ids : List Nat) :
    (machine.freeAll ids).store = machine.store := by
  induction ids generalizing machine with
  | nil => rfl
  | cons id others ih => exact ih (machine.free id)

@[simp] theorem nextProgram_freeAll (machine : Machine) (ids : List Nat) :
    (machine.freeAll ids).code.nextProgram = machine.code.nextProgram := by
  induction ids generalizing machine with
  | nil => rfl
  | cons id others ih => exact ih (machine.free id)

/-- Exactly the programs that are given up are gone. -/
theorem programs_freeAll (machine : Machine) (ids : List Nat) (id : Nat) :
    (machine.freeAll ids).code.programs[id]? =
      if id ∈ ids then none else machine.code.programs[id]? := by
  induction ids generalizing machine with
  | nil => rfl
  | cons freed others ih =>
      rw [freeAll, List.foldl_cons, ← freeAll, ih]
      by_cases later : id ∈ others
      · rw [if_pos later, if_pos (List.mem_cons_of_mem freed later)]
      · rw [if_neg later, free, Std.HashMap.getElem?_erase]
        by_cases same : freed = id
        · simp [same]
        · simp [same, later, Ne.symm same]

/-! ## Reachable machines -/

/-- What a machine can come to when its owner and the hosts of its programs do with it
whatever they can. -/
inductive Reachable : Machine → Prop where
  | new : Reachable {}
  | register {machine : Machine} (name : String) (reachable : Reachable machine) :
      Reachable (machine.register name).2
  | assign {machine : Machine} (cell : Cell) (value : Float) (reachable : Reachable machine) :
      Reachable { machine with store := machine.store.set cell value }
  | writeRange {machine : Machine} (address : Nat) (values : Array Float)
      (reachable : Reachable machine) :
      Reachable { machine with store := (machine.store.writeRange address values).2 }
  | setString {machine : Machine} (id : Float) (text : String)
      (reachable : Reachable machine) :
      Reachable { machine with store := (machine.store.setString id text).2 }
  | setMemoryLimit {machine : Machine} (limit : Nat) (reachable : Reachable machine) :
      Reachable (machine.setMemoryLimit limit)
  | shareMemory {machine : Machine} (name? : Option String) (reachable : Reachable machine) :
      Reachable { machine with code := { machine.code with sharedMemory := name? } }
  | compile {machine : Machine} (source : String) (resolve : String → Option Cell)
      (reachable : Reachable machine) : Reachable (machine.compile source resolve).2
  | execute {machine : Machine} {σ : Type} (host : CodeHost σ) (outer : σ) (id : Nat)
      (reachable : Reachable machine) :
      Reachable { machine with
        store := (run host (machine.code.programs.getD id []) (machine.store, outer)).1 }
  | free {machine : Machine} (id : Nat) (reachable : Reachable machine) :
      Reachable (machine.free id)
  | reset {machine : Machine} (reachable : Reachable machine) : Reachable machine.reset

/-- Every program has a number below the next free one. -/
def Numbered (machine : Machine) : Prop :=
  ∀ id ∈ machine.code.programs, id < machine.code.nextProgram

theorem Numbered.of_samePrograms {before after : Machine} (numbered : before.Numbered)
    (same : SamePrograms before after) : after.Numbered := by
  intro id member
  rw [same.programs] at member
  rw [same.nextProgram]
  exact numbered id member

theorem Numbered.compile {machine : Machine} (numbered : machine.Numbered)
    (source : String) (resolve : String → Option Cell) :
    (machine.compile source resolve).2.Numbered := by
  cases answer : machine.compile source resolve with
  | mk result next =>
      cases result with
      | error fault => exact numbered.of_samePrograms (samePrograms_compile answer)
      | ok id =>
          rcases compile_adds answer with ⟨number, following, program, added⟩
          intro other member
          rw [added, Std.HashMap.mem_insert, beq_iff_eq] at member
          rw [following]
          rcases member with same | old
          · omega
          · have below := numbered other old
            omega

theorem Numbered.freeAll {machine : Machine} (numbered : machine.Numbered)
    (ids : List Nat) : (machine.freeAll ids).Numbered := by
  intro id member
  rw [Std.HashMap.mem_iff_isSome_getElem?, programs_freeAll] at member
  rw [nextProgram_freeAll]
  split at member
  · cases member
  · exact numbered id (Std.HashMap.mem_iff_isSome_getElem?.mpr member)

/-- A machine never numbers a program beyond the numbers that it has given out. -/
theorem Reachable.numbered {machine : Machine} (reachable : machine.Reachable) :
    machine.Numbered := by
  induction reachable with
  | new =>
      intro id member
      exact absurd member Std.HashMap.not_mem_empty
  | @register machine name _ ih =>
      apply ih.of_samePrograms
      exact ⟨(samePrograms_cellOf machine name).programs,
        (samePrograms_cellOf machine name).nextProgram⟩
  | compile source resolve _ ih => exact ih.compile source resolve
  | free id _ ih => exact ih.freeAll [id]
  | assign | writeRange | setString | setMemoryLimit | shareMemory | execute | reset =>
      assumption

end Machine
end EffectHost

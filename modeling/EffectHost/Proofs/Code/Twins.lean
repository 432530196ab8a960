import EffectHost.Proofs.Code.Mirror
import EffectHost.Proofs.Effect.Sections
import EffectHost.Proofs.Host.Frame
import EffectHost.Proofs.Host.Variables

/-!
# Twin machines

A machine makes the cells for the names of a script behind all cells that it had before.  So
the same script gets other cells in a machine that has been used before than in a new one,
but they stand in the same order.  Machines are twins if they agree up to this shift of
cells.  Whatever code they compile, they remain twins, and their programs are mirror images.
-/

namespace EffectHost

open Code

/-! ## Shifted cells -/

/-- How many cells stand in front of those of a script in two machines.  The cells of the
host are always among them. -/
structure CellShift where
  old : Nat
  new : Nat
  hosted_old : HostVariable.all.length ≤ old
  hosted_new : HostVariable.all.length ≤ new

namespace CellShift

variable {shift : CellShift} {cell other : Cell}

/-- The cell of the second machine that stands for a cell of the first. -/
def move (shift : CellShift) (cell : Cell) : Cell :=
  if cell.index < shift.old then cell else ⟨cell.index - shift.old + shift.new⟩

/-- The cell is one of the host's or one of the script's. -/
def InUse (shift : CellShift) (cell : Cell) : Prop :=
  cell.index < HostVariable.all.length ∨ shift.old ≤ cell.index

theorem move_of_hosted (hosted : cell.index < HostVariable.all.length) :
    shift.move cell = cell :=
  if_pos (Nat.lt_of_lt_of_le hosted shift.hosted_old)

theorem move_of_le (behind : shift.old ≤ cell.index) :
    shift.move cell = ⟨cell.index - shift.old + shift.new⟩ :=
  if_neg (Nat.not_lt_of_le behind)

theorem inUse_cell (shift : CellShift) (name : HostVariable) : shift.InUse name.cell :=
  .inl (HostVariable.index_lt_length name)

@[simp] theorem move_cell (shift : CellShift) (name : HostVariable) :
    shift.move name.cell = name.cell :=
  move_of_hosted (HostVariable.index_lt_length name)

/-- Different cells in use are moved to different cells. -/
theorem move_injective (used : shift.InUse cell) (usedToo : shift.InUse other)
    (same : shift.move cell = shift.move other) : cell = other := by
  have hosted := shift.hosted_new
  rcases used with front | behind <;> rcases usedToo with frontToo | behindToo
  · rwa [move_of_hosted front, move_of_hosted frontToo] at same
  · rw [move_of_hosted front, move_of_le behindToo] at same
    have index := congrArg Cell.index same
    dsimp only at index
    omega
  · rw [move_of_le behind, move_of_hosted frontToo] at same
    have index := congrArg Cell.index same
    dsimp only at index
    omega
  · rw [move_of_le behind, move_of_le behindToo, Cell.mk.injEq] at same
    have index : cell.index = other.index := by omega
    exact congrArg Cell.mk index

/-- The cells of sliders stay where they are. -/
theorem sliderOf?_move (used : shift.InUse cell) :
    HostVariable.sliderOf? (shift.move cell) = HostVariable.sliderOf? cell := by
  have hosted := shift.hosted_new
  have front : channelVariables + sliderSlots ≤ HostVariable.all.length := by
    simp [HostVariable.all]
  rcases used with hostedCell | behind
  · rw [move_of_hosted hostedCell]
  · have old := shift.hosted_old
    rw [move_of_le behind, HostVariable.sliderOf?, HostVariable.sliderOf?, dif_neg, dif_neg]
    · omega
    · dsimp only
      omega

end CellShift

/-! ## Stores -/

namespace Strings

/-- The same texts have the same numbers. -/
structure Same (one two : Strings) : Prop where
  texts : ∀ key : Nat, one.texts[key]? = two.texts[key]?
  nextLiteral : one.nextLiteral = two.nextLiteral

variable {one two : Strings}

theorem Same.insert (same : one.Same two) (key : Nat) (text : String) (next : Nat) :
    Same { texts := one.texts.insert key text, nextLiteral := next }
      { texts := two.texts.insert key text, nextLiteral := next } := by
  refine ⟨fun other => ?_, rfl⟩
  rw [Std.HashMap.getElem?_insert, Std.HashMap.getElem?_insert, same.texts]

theorem Same.find? (same : one.Same two) (id : Float) : one.find? id = two.find? id := by
  have lookup : (fun key => one.texts[key]?) = fun key => two.texts[key]? :=
    funext same.texts
  rw [Strings.find?, Strings.find?, lookup]

theorem Same.addLiteral (same : one.Same two) (text : String) :
    (one.addLiteral text).1 = (two.addLiteral text).1 ∧
      (one.addLiteral text).2.Same (two.addLiteral text).2 := by
  rw [Strings.addLiteral, Strings.addLiteral, same.nextLiteral]
  exact ⟨rfl, same.insert _ text _⟩

/-- Strings of scripts that are forgotten need not have agreed. -/
theorem same_forgetUser (texts : ∀ key : Nat, userStrings ≤ key →
    one.texts[key]? = two.texts[key]?)
    (next : one.nextLiteral = two.nextLiteral) : one.forgetUser.Same two.forgetUser := by
  refine ⟨fun key => ?_, next⟩
  rw [forgetUser, forgetUser, Std.HashMap.getElem?_filter', Std.HashMap.getElem?_filter']
  by_cases kept : userStrings ≤ key
  · rw [texts key kept]
  · simp [kept]

end Strings

namespace Store

/-- A new cell holds zero, which is also what is read where there is no cell. -/
theorem get_addCell (store : Store) (cell : Cell) :
    store.addCell.2.get cell = store.get cell := by
  simp only [get, addCell, Array.getD_eq_getD_getElem?, Array.getElem?_push]
  split
  · next same =>
      rw [same, Array.getElem?_eq_none (Nat.le_refl _)]
      rfl
  · rfl

/-- Two stores agree up to a shift of cells. -/
structure Twins (shift : CellShift) (one two : Store) : Prop where
  old : shift.old ≤ one.cells.size
  size : two.cells.size + shift.old = one.cells.size + shift.new
  get : ∀ cell, shift.InUse cell → one.get cell = two.get (shift.move cell)
  memory : one.memory = two.memory
  strings : one.strings.Same two.strings

namespace Twins

variable {shift : CellShift} {one two : Store} {cell : Cell}

theorem read (twins : Twins shift one two) (name : HostVariable) :
    one.read name = two.read name := by
  rw [Store.read, twins.get name.cell (shift.inUse_cell name), shift.move_cell]
  rfl

/-- A cell is there in both or in neither. -/
theorem index_lt (twins : Twins shift one two) (used : shift.InUse cell) :
    cell.index < one.cells.size ↔ (shift.move cell).index < two.cells.size := by
  have old := twins.old
  have size := twins.size
  have hosted := shift.hosted_old
  have hostedToo := shift.hosted_new
  rcases used with front | behind
  · rw [CellShift.move_of_hosted front]
    omega
  · rw [CellShift.move_of_le behind]
    dsimp only
    omega

theorem set (twins : Twins shift one two) (used : shift.InUse cell) (value : Float) :
    Twins shift (one.set cell value) (two.set (shift.move cell) value) := by
  have oneSize : (one.set cell value).cells.size = one.cells.size :=
    (sameShape_set one cell value).cells
  have twoSize : (two.set (shift.move cell) value).cells.size = two.cells.size :=
    (sameShape_set two _ value).cells
  refine ⟨oneSize ▸ twins.old, by rw [oneSize, twoSize, twins.size], ?_, twins.memory,
    twins.strings⟩
  intro other usedToo
  by_cases same : cell = other
  · subst same
    by_cases inside : cell.index < one.cells.size
    · rw [get_set_self inside, get_set_self ((twins.index_lt used).mp inside)]
    · have outside : ¬ (shift.move cell).index < two.cells.size :=
        fun there => inside ((twins.index_lt used).mpr there)
      simp [Store.get, Store.set, inside, outside]
  · have apart : shift.move cell ≠ shift.move other :=
      fun moved => same (CellShift.move_injective used usedToo moved)
    rw [get_set_of_ne _ same, get_set_of_ne _ apart]
    exact twins.get other usedToo

theorem write (twins : Twins shift one two) (name : HostVariable) (value : Float) :
    Twins shift (one.write name value) (two.write name value) := by
  have written := twins.set (shift.inUse_cell name) value
  rwa [shift.move_cell] at written

theorem writeAll (twins : Twins shift one two) (values : List (HostVariable × Float)) :
    Twins shift (one.writeAll values) (two.writeAll values) := by
  induction values generalizing one two with
  | nil => exact twins
  | cons entry others ih => exact ih (twins.write entry.1 entry.2)

theorem withMemory (twins : Twins shift one two) (memory : Memory) :
    Twins shift { one with memory := memory } { two with memory := memory } :=
  ⟨twins.old, twins.size, twins.get, rfl, twins.strings⟩

theorem readItem (twins : Twins shift one two) (position : Float) :
    one.readItem position = two.readItem position := by
  rw [Store.readItem, Store.readItem, twins.memory]

theorem writeItem (twins : Twins shift one two) (position value : Float) :
    Twins shift (one.writeItem position value) (two.writeItem position value) := by
  rw [Store.writeItem, Store.writeItem, twins.memory]
  split
  · exact twins.withMemory _
  · exact twins

theorem writeRange (twins : Twins shift one two) (address : Nat) (values : Array Float) :
    (one.writeRange address values).1 = (two.writeRange address values).1 ∧
      Twins shift (one.writeRange address values).2 (two.writeRange address values).2 := by
  rw [Store.writeRange, Store.writeRange, twins.memory]
  exact ⟨rfl, twins.withMemory _⟩

theorem setString (twins : Twins shift one two) (id : Float) (text : String) :
    (one.setString id text).1 = (two.setString id text).1 ∧
      Twins shift (one.setString id text).2 (two.setString id text).2 := by
  have found (key : Nat) : one.strings.texts.contains key = two.strings.texts.contains key := by
    rw [Std.HashMap.contains_eq_isSome_getElem?, Std.HashMap.contains_eq_isSome_getElem?,
      twins.strings.texts]
  simp only [Store.setString, Strings.set?, found]
  cases Strings.key? id with
  | none => exact ⟨rfl, twins⟩
  | some key =>
      dsimp only
      by_cases kept : (key < userStrings || two.strings.texts.contains key) = true
      · have inserted := twins.strings.insert key text one.strings.nextLiteral
        rw [if_pos kept, if_pos kept]
        exact ⟨rfl, twins.old, twins.size, twins.get, twins.memory, inserted.texts,
          twins.strings.nextLiteral⟩
      · rw [if_neg kept, if_neg kept]
        exact ⟨rfl, twins⟩

theorem assign (twins : Twins shift one two) {arg : Arg}
    (used : ∀ cell, arg.cell? = some cell → shift.InUse cell) (value : Float) :
    Twins shift (arg.assign one value) ((arg.rename shift.move).assign two value) := by
  rw [Arg.assign, Arg.assign, Arg.rename]
  cases plain : arg.cell? with
  | none => exact twins
  | some cell => exact twins.set (used cell plain) value

theorem assignArg (twins : Twins shift one two) {args : List Arg}
    (used : ArgsWithin shift.InUse args) (position : Nat) (value : Float) :
    Twins shift (assignArg args position one value)
      (assignArg (args.map (Arg.rename shift.move)) position two value) := by
  rw [EffectHost.assignArg, EffectHost.assignArg, List.getElem?_map]
  cases there : args[position]? with
  | none => exact twins
  | some arg => exact twins.assign (used arg (List.mem_of_getElem? there)) value

/-- A new cell of one stands for the new cell of the other. -/
theorem addCell (twins : Twins shift one two) :
    two.addCell.1 = shift.move one.addCell.1 ∧ shift.InUse one.addCell.1 ∧
      Twins shift one.addCell.2 two.addCell.2 := by
  have old := twins.old
  have size := twins.size
  have oneSize : one.addCell.2.cells.size = one.cells.size + 1 := Array.size_push _
  have twoSize : two.addCell.2.cells.size = two.cells.size + 1 := Array.size_push _
  refine ⟨?_, .inr old, by omega, by omega, ?_, twins.memory, twins.strings⟩
  · have number : two.cells.size = one.cells.size - shift.old + shift.new := by omega
    exact (congrArg Cell.mk number).trans (CellShift.move_of_le old).symm
  · intro cell used
    rw [get_addCell, get_addCell]
    exact twins.get cell used

end Twins
end Store

/-! ## Machines -/

/-- What the caller assigns to names are cells of the host. -/
def ResolvesHosted (resolve : String → Option Cell) : Prop :=
  ∀ name cell, resolve name = some cell → cell.index < HostVariable.all.length

theorem SliderAliases.resolvesHosted (aliases : SliderAliases) :
    ResolvesHosted aliases.cell? := by
  intro name cell found
  rw [cell?, Option.bind_eq_bind, Option.bind_eq_some_iff] at found
  rcases found with ⟨slot, _, own⟩
  split at own
  · cases own
    exact HostVariable.index_lt_length _
  · cases own

/-- Names denote the same cells up to a shift, and the host has the same ones. -/
structure Codebase.Twins (shift : CellShift) (one two : Codebase) : Prop where
  names : ∀ name : String, two.names[name]? = one.names[name]?.map shift.move
  inUse : ∀ (name : String) (cell : Cell), one.names[name]? = some cell → shift.InUse cell
  registered : one.registered = two.registered

namespace Machine

/-- Two machines agree up to a shift of cells, their programs apart. -/
structure Twins (shift : CellShift) (one two : Machine) : Prop where
  store : Store.Twins shift one.store two.store
  code : Codebase.Twins shift one.code two.code

/-- Two machines have linked an expression alike. -/
structure LinkedAlike (shift : CellShift) (one two : Expr Cell Nat × Machine) : Prop where
  mirrored : two.1 = one.1.relabel shift.move id
  within : ∀ cell ∈ one.1.variables, shift.InUse cell
  machines : Twins shift one.2 two.2

/-- Two machines have linked expressions alike. -/
structure LinkedAllAlike (shift : CellShift) (one two : Program × Machine) : Prop where
  mirrored : two.1 = one.1.rename shift.move
  within : one.1.Within shift.InUse
  machines : Twins shift one.2 two.2

variable {shift : CellShift} {one two : Machine} {resolve : String → Option Cell}

theorem Twins.cellOf (twins : Twins shift one two) (name : String) :
    (two.cellOf name).1 = shift.move (one.cellOf name).1 ∧ shift.InUse (one.cellOf name).1 ∧
      Twins shift (one.cellOf name).2 (two.cellOf name).2 := by
  have same := twins.code.names name
  rw [Machine.cellOf, Machine.cellOf, same]
  cases known : one.code.names[name]? with
  | some cell => exact ⟨rfl, twins.code.inUse name cell known, twins⟩
  | none =>
      rcases twins.store.addCell with ⟨moved, used, store⟩
      refine ⟨moved, used, store, ?_, ?_, twins.code.registered⟩
      · intro other
        simp only [Option.map_none, Std.HashMap.getElem?_insert, moved, twins.code.names other]
        split <;> rfl
      · intro other cell found
        simp only [Std.HashMap.getElem?_insert] at found
        split at found
        · cases found
          exact used
        · exact twins.code.inUse other cell found

theorem Twins.link (twins : Twins shift one two) (hosted : ResolvesHosted resolve)
    (name : String) :
    (two.link resolve name).1 = shift.move (one.link resolve name).1 ∧
      shift.InUse (one.link resolve name).1 ∧
      Twins shift (one.link resolve name).2 (two.link resolve name).2 := by
  rw [Machine.link, Machine.link]
  cases own : resolve name with
  | some cell =>
      have front := hosted name cell own
      exact ⟨(CellShift.move_of_hosted front).symm, .inl front, twins⟩
  | none => exact twins.cellOf name

theorem Twins.addLiteral (twins : Twins shift one two) (text : String) :
    (two.addLiteral text).1 = (one.addLiteral text).1 ∧
      Twins shift (one.addLiteral text).2 (two.addLiteral text).2 := by
  rcases twins.store.strings.addLiteral text with ⟨number, strings⟩
  have store := twins.store
  exact ⟨number.symm, ⟨store.old, store.size, store.get, store.memory, strings⟩, twins.code⟩

mutual

/-- Twins link an expression alike. -/
theorem linkedAlike (hosted : ResolvesHosted resolve) :
    ∀ (expression : SourceExpr) {one two : Machine}, Twins shift one two →
      LinkedAlike shift (linkExpr resolve expression one) (linkExpr resolve expression two)
  | .number _, _, _, twins => ⟨rfl, List.forall_mem_nil _, twins⟩
  | .text content, _, _, twins => by
      rcases twins.addLiteral content with ⟨number, machines⟩
      exact ⟨congrArg Expr.text number, List.forall_mem_nil _, machines⟩
  | .variable name, _, _, twins => by
      rcases twins.link hosted name with ⟨moved, used, machines⟩
      exact ⟨congrArg Expr.variable moved, List.forall_mem_singleton.mpr used, machines⟩
  | .item base index, _, _, twins => by
      have left := linkedAlike hosted base twins
      have right := linkedAlike hosted index left.machines
      refine ⟨?_, List.forall_mem_append.mpr ⟨left.within, right.within⟩, right.machines⟩
      exact congrArg₂ Expr.item left.mirrored right.mirrored
  | .negate operand, _, _, twins => by
      have inner := linkedAlike hosted operand twins
      exact ⟨congrArg Expr.negate inner.mirrored, inner.within, inner.machines⟩
  | .binary op left right, _, _, twins => by
      have early := linkedAlike hosted left twins
      have late := linkedAlike hosted right early.machines
      refine ⟨?_, List.forall_mem_append.mpr ⟨early.within, late.within⟩, late.machines⟩
      exact congrArg₂ (Expr.binary op) early.mirrored late.mirrored
  | .call function arguments, _, _, twins => by
      have inner := linkedAllAlike hosted arguments twins
      exact ⟨congrArg (Expr.call function) inner.mirrored, inner.within, inner.machines⟩
  | .assign name value, _, _, twins => by
      rcases twins.link hosted name with ⟨moved, used, machines⟩
      have inner := linkedAlike hosted value machines
      refine ⟨?_, List.forall_mem_cons.mpr ⟨used, inner.within⟩, inner.machines⟩
      exact congrArg₂ Expr.assign moved inner.mirrored
  | .assignItem base index value, _, _, twins => by
      have left := linkedAlike hosted base twins
      have right := linkedAlike hosted index left.machines
      have inner := linkedAlike hosted value right.machines
      have front := List.forall_mem_append.mpr ⟨left.within, right.within⟩
      refine ⟨?_, List.forall_mem_append.mpr ⟨front, inner.within⟩, inner.machines⟩
      simp only [linkExpr, Expr.relabel, left.mirrored, right.mirrored, inner.mirrored]

/-- Twins link expressions alike. -/
theorem linkedAllAlike (hosted : ResolvesHosted resolve) :
    ∀ (expressions : List SourceExpr) {one two : Machine}, Twins shift one two →
      LinkedAllAlike shift (linkAll resolve expressions one) (linkAll resolve expressions two)
  | [], _, _, twins => ⟨rfl, List.forall_mem_nil _, twins⟩
  | first :: others, _, _, twins => by
      have head := linkedAlike hosted first twins
      have tail := linkedAllAlike hosted others head.machines
      refine ⟨?_, List.forall_mem_append.mpr ⟨head.within, tail.within⟩, tail.machines⟩
      exact congrArg₂ List.cons head.mirrored tail.mirrored

end

theorem Twins.noteTokens (hosted : ResolvesHosted resolve) (tokens : List Token)
    (twins : Twins shift one two) :
    Twins shift (noteTokens resolve tokens one) (noteTokens resolve tokens two) := by
  induction tokens generalizing one two with
  | nil => exact twins
  | cons token rest ih =>
      rw [Machine.noteTokens, Machine.noteTokens]
      split
      · next name _ =>
          split
          · exact ih twins
          · exact ih (twins.link hosted name).2.2
      · next content _ => exact ih (twins.addLiteral content).2
      · exact ih twins

/-- Twins compile code to mirrored programs, or find the same fault in it. -/
theorem Twins.compile (twins : Twins shift one two) (hosted : ResolvesHosted resolve)
    (source : String) :
    Twins shift (one.compile source resolve).2 (two.compile source resolve).2 := by
  rw [Machine.compile, Machine.compile]
  split
  · exact twins
  · split
    · next statements _ =>
        have linked := (linkedAllAlike hosted statements twins).machines
        exact ⟨linked.store, linked.code.names, linked.code.inUse, linked.code.registered⟩
    · exact twins.noteTokens hosted _

/-- Where code has no fault, the program of one machine mirrors that of the other. -/
theorem Twins.compile_programs (twins : Twins shift one two) (hosted : ResolvesHosted resolve)
    {source : String} (sound : fault? source = none) :
    ∃ program : Program, program.Within shift.InUse ∧
      (one.compile source resolve).2.code.programs[one.code.nextProgram]? = some program ∧
      (two.compile source resolve).2.code.programs[two.code.nextProgram]? =
        some (program.rename shift.move) := by
  rw [fault?] at sound
  rw [Machine.compile, Machine.compile]
  split at sound
  · cases sound
  · next tokens scanned =>
      split at sound
      · next statements read =>
          simp only [scanned, read]
          have linked := linkedAllAlike hosted statements twins
          have number := (samePrograms_linkAll resolve statements one).nextProgram
          have numberToo := (samePrograms_linkAll resolve statements two).nextProgram
          rw [← number, ← numberToo]
          refine ⟨_, linked.within, Std.HashMap.getElem?_insert_self, ?_⟩
          rw [← linked.mirrored]
          exact Std.HashMap.getElem?_insert_self
      · cases sound

/-- Nothing but programs is given up. -/
theorem freeAll_eq (machine : Machine) (ids : List Nat) :
    ∃ programs, machine.freeAll ids =
      { machine with code := { machine.code with programs := programs } } := by
  induction ids generalizing machine with
  | nil => exact ⟨machine.code.programs, rfl⟩
  | cons id others ih => exact ih (machine.free id)

/-- Which programs are given up does not matter. -/
theorem Twins.freeAll (twins : Twins shift one two) (ids others : List Nat) :
    Twins shift (one.freeAll ids) (two.freeAll others) := by
  rcases one.freeAll_eq ids with ⟨left, first⟩
  rcases two.freeAll_eq others with ⟨right, second⟩
  rw [first, second]
  exact ⟨twins.store, twins.code.names, twins.code.inUse, twins.code.registered⟩

/-- Resetting forgets what both have to forget. -/
theorem Twins.reset (twins : Twins shift one two) : Twins shift one.reset two.reset := by
  have store := twins.store
  have known (name : String) (cell : Cell) (found : one.reset.code.names[name]? = some cell) :
      one.code.names[name]? = some cell := by
    change (Std.HashMap.filter _ _)[name]? = some cell at found
    rw [Std.HashMap.getElem?_filter', Option.filter_eq_some_iff] at found
    exact found.1
  refine ⟨⟨store.old, store.size, store.get, congrArg Memory.clear store.memory,
    Strings.same_forgetUser (fun key _ => store.strings.texts key) store.strings.nextLiteral⟩,
    ?_, fun name cell found => twins.code.inUse name cell (known name cell found),
    twins.code.registered⟩
  intro name
  simp only [Machine.reset, Std.HashMap.getElem?_filter', twins.code.names name,
    twins.code.registered]
  cases one.code.names[name]? with
  | none => rfl
  | some cell =>
      simp only [Option.map_some, Option.filter_some]
      split <;> rfl

end Machine

/-! ## Sections -/

namespace CompiledSections

open Machine

/-- The programs that a machine has for the sections, with their kinds. -/
def inMachine (sections : CompiledSections) (machine : Machine) :
    List (SectionKind × Program) :=
  sections.programs.map fun entry => (entry.1, machine.code.programs.getD entry.2 [])

/-- The sections of two machines have mirrored programs. -/
structure Mirrored (shift : CellShift) (one two : CompiledSections)
    (first second : Machine) : Prop where
  programs : two.inMachine second =
    (one.inMachine first).map fun entry => (entry.1, entry.2.rename shift.move)
  within : ∀ entry ∈ one.inMachine first, entry.2.Within shift.InUse

variable {shift : CellShift} {resolve : String → Option Cell}

/-- Another program does not take the place of one that is there. -/
theorem inMachine_compile {done : CompiledSections} {machine next : Machine} {source : String}
    {id : Nat} (compiled : machine.compile source resolve = (.ok id, next))
    (below : ∀ other ∈ done.ids, other < machine.code.nextProgram) :
    done.inMachine next = done.inMachine machine := by
  rcases compile_adds compiled with ⟨number, _, program, added⟩
  apply List.map_congr_left
  intro entry member
  have older := below entry.2 (List.mem_map_of_mem member)
  rw [added, Std.HashMap.getD_insert, if_neg]
  simp only [beq_iff_eq]
  omega

/-- A program that was added stands behind the others. -/
theorem inMachine_add {done : CompiledSections} {machine next : Machine} {source : String}
    {id : Nat} {program : Program} (compiled : machine.compile source resolve = (.ok id, next))
    (below : ∀ other ∈ done.ids, other < machine.code.nextProgram)
    (there : next.code.programs[machine.code.nextProgram]? = some program)
    (kind : SectionKind) :
    inMachine ⟨done.programs ++ [(kind, id)]⟩ next = done.inMachine machine ++ [(kind, program)] := by
  have number := (compile_adds compiled).1
  have behind : next.code.programs.getD id [] = program := by
    rw [number, Std.HashMap.getD_eq_getD_getElem?, there, Option.getD_some]
  rw [← inMachine_compile compiled below, inMachine, List.map_append, List.map_singleton, behind]
  rfl

theorem below_add {done : CompiledSections} {machine next : Machine} {source : String}
    {id : Nat} (compiled : machine.compile source resolve = (.ok id, next))
    (below : ∀ other ∈ done.ids, other < machine.code.nextProgram) (kind : SectionKind) :
    ∀ other ∈ ids ⟨done.programs ++ [(kind, id)]⟩, other < next.code.nextProgram := by
  rcases compile_adds compiled with ⟨number, following, _⟩
  rw [ids, List.map_append, List.forall_mem_append]
  constructor
  · intro other member
    have older := below other member
    omega
  · intro other member
    have last := List.mem_singleton.mp member
    dsimp only at last
    omega

/-- Two attempts to compile the same sections come out alike. -/
structure AttemptsAlike (shift : CellShift)
    (one two : Except Failure CompiledSections × Machine) : Prop where
  machines : Machine.Twins shift one.2 two.2
  results : (∃ failure, one.1 = .error failure ∧ two.1 = .error failure) ∨
    ∃ sections others, one.1 = .ok sections ∧ two.1 = .ok others ∧
      Mirrored shift sections others one.2 two.2

/-- Twins compile sections alike. -/
theorem attemptsAlike_compileAll (hosted : ResolvesHosted resolve) (parts : List Section)
    {done other : CompiledSections} {one two : Machine} (twins : Machine.Twins shift one two)
    (below : ∀ id ∈ done.ids, id < one.code.nextProgram)
    (belowToo : ∀ id ∈ other.ids, id < two.code.nextProgram)
    (mirrored : Mirrored shift done other one two) :
    AttemptsAlike shift (compileAll resolve parts done one)
      (compileAll resolve parts other two) := by
  induction parts generalizing done other one two with
  | nil => exact ⟨twins, .inr ⟨done, other, rfl, rfl, mirrored⟩⟩
  | cons part others ih =>
      have machines := twins.compile hosted part.text
      have answer := compile_fst one part.text resolve
      have answerToo := compile_fst two part.text resolve
      rw [compileAll, compileAll]
      cases first : one.compile part.text resolve with
      | mk result next =>
      cases second : two.compile part.text resolve with
      | mk resultToo nextToo =>
      rw [first, second] at machines
      rw [first] at answer
      rw [second] at answerToo
      dsimp only at answer answerToo machines
      cases sound : fault? part.text with
      | some fault =>
          rw [sound] at answer answerToo
          subst answer answerToo
          exact ⟨machines.freeAll _ _, .inl ⟨_, rfl, rfl⟩⟩
      | none =>
          rw [sound] at answer answerToo
          subst answer answerToo
          rcases twins.compile_programs hosted sound with ⟨program, within, there, thereToo⟩
          rw [first] at there
          rw [second] at thereToo
          have grown := inMachine_add first below there part.kind
          have grownToo := inMachine_add second belowToo thereToo part.kind
          refine ih machines (below_add first below part.kind)
            (below_add second belowToo part.kind) ⟨?_, ?_⟩
          · rw [grown, grownToo, mirrored.programs, List.map_append, List.map_singleton]
          · rw [grown]
            exact List.forall_mem_append.mpr
              ⟨mirrored.within, List.forall_mem_singleton.mpr within⟩

theorem twins_prepare (script : LoadedScript) {one two : Machine}
    (twins : Machine.Twins shift one two) :
    Machine.Twins shift (prepare script one) (prepare script two) := by
  have store := twins.store
  have memory := congrArg (Memory.setLimit · script.memorySlots) store.memory
  exact ⟨⟨store.old, store.size, store.get, memory, store.strings⟩, twins.code.names,
    twins.code.inUse, twins.code.registered⟩

/-- Twins compile a script alike. -/
theorem attemptsAlike_compile (hosted : ResolvesHosted resolve) (script : LoadedScript)
    (options : CompileOptions) {one two : Machine} (twins : Machine.Twins shift one two) :
    AttemptsAlike shift (compile resolve script options one)
      (compile resolve script options two) :=
  attemptsAlike_compileAll hosted _ (twins_prepare script twins) (List.forall_mem_nil _)
    (List.forall_mem_nil _) ⟨rfl, List.forall_mem_nil _⟩

end CompiledSections
end EffectHost

import EffectHost.Proofs.Code.Programs
import EffectHost.Proofs.DataFile.Serializer
import EffectHost.Proofs.Host.Agreement
import EffectHost.Proofs.Host.Rounding

/-!
# Items of saved data

A serialize section that calls nothing but the functions for values, texts and blocks, each
with the serializer, moves a list of items.  While it writes, every item appends its bytes
and the store stays as it is.  While it reads what was written, every item takes its own
bytes, and the store is the one that was saved, rounded.
-/

namespace EffectHost

open Bytes Code Number FileFunctions HostFunction

/-- The same surroundings with another serializer. -/
def Surroundings.withSerializer (around : Surroundings) (serializer : Serializer) :
    Surroundings :=
  { around with files := { around.files with serializer := serializer } }

/-- A numeral in code, which may have a minus sign. -/
structure Literal where
  negative : Bool
  magnitude : Float
deriving DecidableEq

namespace Literal

/-- The expression by which a numeral is read. -/
def expr {ν τ : Type} (literal : Literal) : Expr ν τ :=
  if literal.negative then .negate (.number literal.magnitude) else .number literal.magnitude

def value (literal : Literal) : Float :=
  if literal.negative then -literal.magnitude else literal.magnitude

/-- The numeral that is read as an expression. -/
def ofExpr? : SourceExpr → Option Literal
  | .number magnitude => some ⟨false, magnitude⟩
  | .negate (.number magnitude) => some ⟨true, magnitude⟩
  | _ => none

theorem expr_of_ofExpr? {expression : SourceExpr} {literal : Literal}
    (found : ofExpr? expression = some literal) : literal.expr = expression := by
  unfold ofExpr? at found
  split at found <;> cases found <;> rfl

end Literal

/-- What one call moves between the store and the serializer. -/
inductive SavedItem (ν : Type) where
  | value (name : ν)
  | text (id : Literal)
  | block (start count : Literal)
deriving DecidableEq

namespace SavedItem

/-- The call that moves an item. -/
def statement {ν τ : Type} : SavedItem ν → Expr ν τ
  | .value name => .call "file_var" [.number 0.0, .variable name]
  | .text id => .call "file_string" [.number 0.0, id.expr]
  | .block start count => .call "file_mem" [.number 0.0, start.expr, count.expr]

/-- The item that a call moves. -/
def ofExpr? : SourceExpr → Option (SavedItem String)
  | .call function (.number handle :: arguments) =>
    if handle = 0.0 then
      match function, arguments with
      | "file_var", [.variable name] => some (.value name)
      | "file_string", [id] => (Literal.ofExpr? id).map .text
      | "file_mem", [start, count] => do
        return .block (← Literal.ofExpr? start) (← Literal.ofExpr? count)
      | _, _ => none
    else none
  | _ => none

/-- The items that code moves, if it does nothing else. -/
def ofSource? (source : String) : Option (List (SavedItem String)) :=
  (statements? source).bind fun statements => statements.mapM ofExpr?

/-- Number of slots in a block. -/
def slots (start count : Float) : Nat :=
  if start < 0.0 || count ≤ 0.0 then 0 else min (toNatural count) maxMemorySlots

/-- The bytes of values in memory. -/
def blockBytes (memory : Memory) (address count : Nat) : List UInt8 :=
  (List.range' address count).flatMap fun place => ofWord (narrow (memory.read place))

/-- The bytes of an item.  Slots past the limit of the memory have none. -/
def bytes (store : Store) : SavedItem Cell → List UInt8
  | .value cell => ofWord (narrow (store.get cell))
  | .text id => Bytes.ofText (store.strings.text id.value)
  | .block start count =>
    let address := toNatural start.value
    blockBytes store.memory address
      (store.memory.covered address (slots start.value count.value))

/-- An item can be read as it was written: it is no text with too many bytes for their
number, and no block past the limit of the memory. -/
def Readable {ν : Type} (store : Store) : SavedItem ν → Prop
  | .value _ => True
  | .text id => (Utf8.encode (store.strings.text id.value)).size < 2 ^ 32
  | .block start count =>
    slots start.value count.value ≤ store.memory.limit - toNatural start.value

/-- Move an item between the store and an open file. -/
def transfer (item : SavedItem Cell) (store : Store) (file : OpenFile) : Store × OpenFile :=
  match item with
  | .value cell =>
    let moved := moveValue ⟨store.get cell, some cell⟩ store file
    (moved.1.2, moved.2)
  | .text id =>
    let moved := moveString id.value store file
    (moved.1.2, moved.2)
  | .block start count =>
    let moved := moveBlock (slots start.value count.value) (toNatural start.value) store file
    (moved.1.2, moved.2)

/-- What the call that moves an item tells: whether a value or a text was moved, and how many
slots of a block were. -/
def answer (item : SavedItem Cell) (store : Store) (file : OpenFile) : Float :=
  match item with
  | .value cell => if (moveValue ⟨store.get cell, some cell⟩ store file).1.1 then 1.0 else 0.0
  | .text id => if (moveString id.value store file).1.1 then 1.0 else 0.0
  | .block start count =>
    Float.ofNat
      (moveBlock (slots start.value count.value) (toNatural start.value) store file).1.1

/-! ## In the source -/

theorem statement_of_ofExpr? {expression : SourceExpr} {item : SavedItem String}
    (found : ofExpr? expression = some item) : item.statement = expression := by
  unfold ofExpr? at found
  split at found
  · split at found
    · next zero =>
        subst zero
        split at found
        · cases found
          rfl
        · rcases Option.map_eq_some_iff.mp found with ⟨literal, read, rfl⟩
          rw [statement, Literal.expr_of_ofExpr? read]
        · simp only [Option.bind_eq_bind, Option.bind_eq_some_iff, Option.pure_def,
            Option.some.injEq] at found
          rcases found with ⟨first, start, second, count, rfl⟩
          rw [statement, Literal.expr_of_ofExpr? start, Literal.expr_of_ofExpr? count]
        · cases found
    · cases found
  · cases found

theorem statements_of_ofSource? {source : String} {items : List (SavedItem String)}
    (found : ofSource? source = some items) :
    statements? source = some (items.map statement) := by
  have moves : ∀ (statements : List SourceExpr) (items : List (SavedItem String)),
      statements.mapM ofExpr? = some items → statements = items.map statement := by
    intro statements
    induction statements with
    | nil =>
        intro items moved
        cases moved
        rfl
    | cons first others ih =>
        intro items moved
        simp only [List.mapM_cons, Option.bind_eq_bind, Option.bind_eq_some_iff,
          Option.pure_def, Option.some.injEq] at moved
        rcases moved with ⟨item, here, rest, behind, rfl⟩
        rw [List.map_cons, statement_of_ofExpr? here, ← ih rest behind]
  rcases Option.bind_eq_some_iff.mp found with ⟨statements, read, moved⟩
  rw [read, moves statements items moved]

/-! ## Linking -/

section Linking

variable (resolve : String → Option Cell)

theorem linkAll_literals (literals : List Literal) (machine : Machine) :
    Machine.linkAll resolve (literals.map Literal.expr) machine =
      (literals.map Literal.expr, machine) := by
  induction literals with
  | nil => rfl
  | cons literal others ih =>
      have first : Machine.linkExpr resolve literal.expr machine = (literal.expr, machine) := by
        rw [Literal.expr, Literal.expr]
        cases literal.negative <;> rfl
      rw [List.map_cons, Machine.linkAll, first, ih]
      rfl

/-- Linking gives a variable its cell, and leaves the numerals as they are. -/
theorem linkExpr_statement (item : SavedItem String) (machine : Machine) :
    ∃ (linked : SavedItem Cell) (next : Machine),
      Machine.linkExpr resolve item.statement machine = (linked.statement, next) ∧
        ∀ store, item.Readable store → linked.Readable store := by
  cases item with
  | value name => exact ⟨.value (machine.link resolve name).1, _, rfl, fun _ kept => kept⟩
  | text id =>
      have linked := linkAll_literals resolve [⟨false, 0.0⟩, id] machine
      refine ⟨.text id, machine, ?_, fun _ kept => kept⟩
      exact congrArg (fun arguments => (Expr.call "file_string" arguments.1, arguments.2)) linked
  | block start count =>
      have linked := linkAll_literals resolve [⟨false, 0.0⟩, start, count] machine
      refine ⟨.block start count, machine, ?_, fun _ kept => kept⟩
      exact congrArg (fun arguments => (Expr.call "file_mem" arguments.1, arguments.2)) linked

theorem linkAll_statements (items : List (SavedItem String)) (machine : Machine) :
    ∃ linked : List (SavedItem Cell),
      (Machine.linkAll resolve (items.map statement) machine).1 = linked.map statement ∧
        ∀ store, (∀ item ∈ items, item.Readable store) →
          ∀ item ∈ linked, item.Readable store := by
  induction items generalizing machine with
  | nil => exact ⟨[], rfl, fun _ _ => List.forall_mem_nil _⟩
  | cons item others ih =>
      rcases linkExpr_statement resolve item machine with ⟨first, next, linked, kept⟩
      rcases ih next with ⟨rest, more, still⟩
      refine ⟨first :: rest, ?_, ?_⟩
      · rw [List.map_cons, Machine.linkAll, linked, List.map_cons, ← more]
      · intro store readable
        rcases List.forall_mem_cons.mp readable with ⟨here, behind⟩
        exact List.forall_mem_cons.mpr ⟨kept store here, still store behind⟩

end Linking

/-- The variables of a section are those of its items. -/
theorem mem_variables_statements {items : List (SavedItem Cell)} {cell : Cell} :
    cell ∈ variablesOfAll (items.map statement : Program) ↔ .value cell ∈ items := by
  have literal : ∀ numeral : Literal, (numeral.expr : Expr Cell Nat).variables = [] := by
    intro numeral
    rw [Literal.expr]
    cases numeral.negative <;> rfl
  induction items with
  | nil => simp [variablesOfAll]
  | cons item others ih =>
      cases item <;>
        simp [variablesOfAll, statement, Expr.variables, literal, ih]

/-! ## Calls are transfers -/

theorem handle_zero (others : List Arg) : FileFunctions.handle (⟨0.0, none⟩ :: others) = 0 := by
  have zero : roundToSigned 0.0 = 0 := by decide +kernel
  exact zero

theorem evalArgs_literals {σ : Type} (host : CodeHost σ) (literals : List Literal)
    (state : Store × σ) :
    evalArgs host (literals.map Literal.expr) state =
      (literals.map fun literal => ⟨literal.value, none⟩, state) := by
  induction literals with
  | nil => rfl
  | cons literal others ih =>
      have first : evalArgs host (literal.expr :: others.map Literal.expr) state =
          (⟨literal.value, none⟩ :: (evalArgs host (others.map Literal.expr) state).1,
            (evalArgs host (others.map Literal.expr) state).2) := by
        rw [Literal.expr, Literal.value]
        cases literal.negative <;> rfl
      rw [List.map_cons, first, ih]
      rfl

theorem moveBlock_zero (start : Nat) (store : Store) (file : OpenFile) :
    moveBlock 0 start store file = ((0, store), file) := by
  rw [moveBlock, writeBlocks, readBlocks]
  split <;> rfl

/-- A call of a host function by its name, with arguments that change nothing. -/
theorem eval_call_of_name (facts : Facts) (caller : Caller) {name : String}
    {function : HostFunction} (known : ofName? name = some function)
    {arguments : List (Expr Cell Nat)} {values : List Arg} {state : State}
    (evaluated : evalArgs { call := call facts caller } arguments state = (values, state)) :
    eval { call := call facts caller } (.call name arguments) state =
      function.run facts caller values state := by
  rw [eval, evaluated]
  simp only [call, known, Option.getD_some]

/-- Moving something between the store and the serializer. -/
theorem onFilesAndStore_ofFile {α : Type} (tell : α → Float)
    (operation : Store → OpenFile → (α × Store) × OpenFile) (state : State) :
    onFilesAndStore (ofFile 0 tell operation) state =
      let moved := operation state.1 (.serializer state.2.files.serializer)
      (tell moved.1.1, moved.1.2, { state.2 with files := state.2.files.put 0 moved.2 }) := by
  rfl

/-- A call moves its item between the store and the serializer. -/
theorem eval_statement (facts : Facts) (caller : Caller) (item : SavedItem Cell)
    (state : State) :
    eval { call := call facts caller } item.statement state =
      let moved := item.transfer state.1 (.serializer state.2.files.serializer)
      (item.answer state.1 (.serializer state.2.files.serializer), moved.1,
        { state.2 with files := state.2.files.put 0 moved.2 }) := by
  cases item with
  | value cell =>
      let args : List Arg := [⟨0.0, none⟩, ⟨state.1.get cell, some cell⟩]
      have named : ofName? "file_var" = some .fileValue := rfl
      have second : args[1]? = some ⟨state.1.get cell, some cell⟩ := rfl
      rw [statement, eval_call_of_name facts caller named (show _ = (args, state) from rfl)]
      simp only [HostFunction.run, value_eq_ofFile second, args, handle_zero]
      exact onFilesAndStore_ofFile _ _ state
  | text id =>
      let args : List Arg := [⟨0.0, none⟩, ⟨id.value, none⟩]
      have named : ofName? "file_string" = some .fileString := rfl
      have evaluated : evalArgs { call := call facts caller } [.number 0.0, id.expr] state =
          (args, state) := evalArgs_literals _ [⟨false, 0.0⟩, id] state
      rw [statement, eval_call_of_name facts caller named evaluated]
      simp only [HostFunction.run, string_eq_ofFile, args, handle_zero]
      exact onFilesAndStore_ofFile _ _ state
  | block start count =>
      let args : List Arg := [⟨0.0, none⟩, ⟨start.value, none⟩, ⟨count.value, none⟩]
      have named : ofName? "file_mem" = some .fileBlock := rfl
      have evaluated : evalArgs { call := call facts caller }
          [.number 0.0, start.expr, count.expr] state = (args, state) :=
        evalArgs_literals _ [⟨false, 0.0⟩, start, count] state
      rw [statement, eval_call_of_name facts caller named evaluated]
      by_cases nothing : (start.value < 0.0 || count.value ≤ 0.0) = true
      · have none : (argValue args 1 < 0.0 || argValue args 2 ≤ 0.0) = true := nothing
        have zero : Float.ofNat 0 = 0.0 := by decide +kernel
        simp only [HostFunction.run, onFilesAndStore, FileFunctions.block, if_pos none, transfer,
          answer, slots, if_pos nothing, moveBlock_zero, zero]
        rfl
      · have some : ¬ (argValue args 1 < 0.0 || argValue args 2 ≤ 0.0) = true := nothing
        simp only [HostFunction.run, block_eq_ofFile some, args, handle_zero]
        rw [onFilesAndStore_ofFile]
        simp only [transfer, answer, slots, if_neg nothing]
        rfl

theorem eval_statement_of_transfer (facts : Facts) (caller : Caller) {item : SavedItem Cell}
    {store after : Store} {serializer next : Serializer}
    (moved : item.transfer store (.serializer serializer) = (after, .serializer next))
    (around : Surroundings) :
    eval { call := call facts caller } item.statement (store, around.withSerializer serializer) =
      (item.answer store (.serializer serializer), after, around.withSerializer next) := by
  rw [eval_statement]
  dsimp only [Surroundings.withSerializer]
  rw [moved]
  rfl

/-! ## Writing -/

theorem foldl_writeValue (values : List Float) (before : List UInt8) :
    values.foldl (fun file value => (file.writeValue value).2)
        (OpenFile.serializer (.written before)) =
      .serializer (.written (before ++ values.flatMap fun value => ofWord (narrow value))) := by
  induction values generalizing before with
  | nil => rw [List.flatMap_nil, List.append_nil, List.foldl_nil]
  | cons value others ih =>
      rw [List.foldl_cons, OpenFile.writeValue_written, ih, List.flatMap_cons,
        List.append_assoc]

/-- A block is written value by value, up to its end or the limit of the memory. -/
theorem writeBlocks_written (memory : Memory) (left address : Nat) (before : List UInt8) :
    writeBlocks left address memory (.serializer (.written before)) =
      (memory.covered address left, .serializer (.written
        (before ++ blockBytes memory address (memory.covered address left)))) := by
  rw [writeBlocks_eq, Memory.toList_readRange, foldl_writeValue, List.flatMap_map]
  rfl

/-- While it is written an item appends its bytes. -/
theorem transfer_written (item : SavedItem Cell) (store : Store) (before : List UInt8) :
    item.transfer store (.serializer (.written before)) =
      (store, .serializer (.written (before ++ item.bytes store))) := by
  have writing : ∀ bytes, (OpenFile.serializer (.written bytes)).isWriting = true :=
    fun _ => rfl
  cases item with
  | value cell =>
      rw [transfer, moveValue, writing, if_pos rfl, OpenFile.writeValue_written]
      rfl
  | text id =>
      rw [transfer, moveString, writing, if_pos rfl, OpenFile.writeString_written]
      rfl
  | block start count =>
      rw [transfer, moveBlock, writing, if_pos rfl]
      dsimp only
      rw [writeBlocks_written]
      rfl

/-! ## Reading -/

section Reading

variable {rounded : Cell → Prop} {origin store : Store} {state : Serializer}
  {rest : List UInt8}

/-- Values that were written are read one by one. -/
theorem readValues_reads {memory : Memory} {address count : Nat}
    (room : count ≤ store.memory.limit - address)
    (reads : state.Reads (blockBytes memory address count ++ rest)) :
    ∃ values next, (OpenFile.serializer state).readValues count = (values, .serializer next) ∧
      (store.writeRange address values).1 = count ∧
      Memory.Filled (fun place => roundToSingle (memory.read place)) address count store.memory
        (store.writeRange address values).2.memory ∧ next.Reads rest := by
  let words := (List.range' address count).map fun place => narrow (memory.read place)
  have length : words.length = count := by simp [words]
  have bytes : blockBytes memory address count = words.flatMap ofWord := by
    rw [List.flatMap_map]
    rfl
  rw [bytes] at reads
  rcases OpenFile.readEach_of_reads words #[] reads with ⟨next, read, behind⟩
  have values : #[] ++ (words.map widen).toArray = ((List.range' address count).map fun place =>
      roundToSingle (memory.read place)).toArray := by
    rw [Array.empty_append, List.map_map]
    rfl
  rw [length, values] at read
  rcases Memory.Filled.writeRange (fun place => roundToSingle (memory.read place)) room with
    ⟨stored, filled⟩
  exact ⟨_, next, read, stored, filled, behind⟩

/-- A block is read up to its end, and fills its range of the memory. -/
theorem readBlocks_reads {memory : Memory} (left : Nat) {address : Nat}
    (room : left ≤ store.memory.limit - address)
    (reads : state.Reads (blockBytes memory address left ++ rest)) :
    ∃ after next, readBlocks left address store (.serializer state) =
      (left, { store with memory := after }, .serializer next) ∧
      Memory.Filled (fun place => roundToSingle (memory.read place)) address left store.memory
        after ∧ next.Reads rest := by
  rcases readValues_reads room reads with ⟨values, next, read, stored, filled, behind⟩
  refine ⟨_, next, ?_, filled, behind⟩
  rw [readBlocks_eq, asked_of_le room, read]
  dsimp only
  rw [stored]
  rfl

/-- While it is read an item takes its bytes, and is put back rounded. -/
theorem transfer_reads {item : SavedItem Cell} (readable : item.Readable origin)
    (restored : Store.Restored rounded origin store)
    (reads : state.Reads (item.bytes origin ++ rest)) :
    ∃ after next, item.transfer store (.serializer state) = (after, .serializer next) ∧
      Store.Restored (fun cell => item = .value cell ∨ rounded cell) origin after ∧
      next.Reads rest := by
  have reading : (OpenFile.serializer state).isWriting = false := by
    simp [OpenFile.isWriting, reads.mode]
  cases item with
  | value cell =>
      rcases OpenFile.readValue_of_reads reads with ⟨next, read, left⟩
      refine ⟨store.set cell (roundToSingle (origin.get cell)), next, ?_, ?_, left⟩
      · rw [transfer, moveValue, reading, if_neg Bool.false_ne_true, read]
        rfl
      · simpa using restored.set cell
  | text id =>
      rcases OpenFile.readString_of_reads readable reads with ⟨next, read, left⟩
      refine ⟨(store.setString id.value (origin.strings.text id.value)).2, next, ?_, ?_, left⟩
      · rw [transfer, moveString, reading, if_neg Bool.false_ne_true, read]
      · simpa using restored.setString id.value
  | block start count =>
      have covered : origin.memory.covered (toNatural start.value)
          (slots start.value count.value) = slots start.value count.value :=
        Nat.min_eq_left readable
      rw [bytes, covered] at reads
      have room : slots start.value count.value ≤
          store.memory.limit - toNatural start.value := by
        rw [restored.memory.limit]
        exact readable
      rcases readBlocks_reads _ room reads with ⟨after, next, read, filled, left⟩
      refine ⟨{ store with memory := after }, next, ?_, ?_, left⟩
      · rw [transfer, moveBlock, reading, if_neg Bool.false_ne_true, read]
      · have put : Store.Restored rounded origin { store with memory := after } :=
          ⟨restored.round, restored.exact, restored.memory.fill filled, restored.texts⟩
        simpa using put

end Reading

/-! ## Sections of items -/

/-- The bytes of items in a row. -/
def allBytes (items : List (SavedItem Cell)) (store : Store) : List UInt8 :=
  items.flatMap fun item => item.bytes store

/-- A section writes the bytes of its items, and leaves the store as it is. -/
theorem run_written (facts : Facts) (caller : Caller) (store : Store)
    (items : List (SavedItem Cell)) (around : Surroundings) (before : List UInt8) :
    Code.run { call := call facts caller } (items.map statement)
        (store, around.withSerializer (.written before)) =
      (store, around.withSerializer (.written (before ++ allBytes items store))) := by
  induction items generalizing before with
  | nil =>
      rw [allBytes, List.flatMap_nil, List.append_nil]
      rfl
  | cons item others ih =>
      have moved := eval_statement_of_transfer facts caller
        (transfer_written item store before) around
      rw [List.map_cons, Code.run, List.foldl_cons, moved, ← Code.run, ih,
        List.append_assoc]
      rfl

/-- A section reads the bytes of its items, and puts the store back from which they came,
with the values of its variables rounded. -/
theorem run_reads {rounded : Cell → Prop} (facts : Facts) (caller : Caller) {origin : Store}
    {items : List (SavedItem Cell)} (readable : ∀ item ∈ items, item.Readable origin)
    {store : Store} (restored : Store.Restored rounded origin store) (around : Surroundings)
    {state : Serializer} (reads : state.Reads (allBytes items origin)) :
    ∃ after next, Code.run { call := call facts caller } (items.map statement)
        (store, around.withSerializer state) = (after, around.withSerializer next) ∧
      Store.Restored (fun cell => .value cell ∈ items ∨ rounded cell) origin after := by
  induction items generalizing rounded store state with
  | nil =>
      refine ⟨store, state, rfl, ?_⟩
      simpa using restored
  | cons item others ih =>
      rcases List.forall_mem_cons.mp readable with ⟨first, rest⟩
      rw [allBytes, List.flatMap_cons] at reads
      rcases transfer_reads first restored reads with ⟨after, next, moved, put, left⟩
      rcases ih rest put left with ⟨last, final, ran, done⟩
      refine ⟨last, final, ?_, ?_⟩
      · rw [List.map_cons, Code.run, List.foldl_cons,
          eval_statement_of_transfer facts caller moved around]
        exact ran
      · have cells : (fun cell => .value cell ∈ item :: others ∨ rounded cell) =
            fun cell => .value cell ∈ others ∨ item = .value cell ∨ rounded cell := by
          funext cell
          rw [List.mem_cons, @eq_comm _ item, or_assoc, or_left_comm]
        rw [cells]
        exact done

/-- A store that was restored has the bytes to save of the store that it came from. -/
theorem allBytes_of_restored {rounded : Cell → Prop} {origin store : Store}
    (restored : Store.Restored rounded origin store) (items : List (SavedItem Cell)) :
    allBytes items store = allBytes items origin := by
  have each : ∀ item : SavedItem Cell, item.bytes store = item.bytes origin := by
    intro item
    cases item with
    | value cell => rw [bytes, bytes, restored.narrow_get]
    | text id => rw [bytes, bytes, restored.texts]
    | block start count =>
        simp only [bytes, blockBytes, Memory.covered, restored.memory.limit,
          restored.memory.values]
  rw [allBytes, allBytes, funext each]

end SavedItem
end EffectHost

import EffectHost.Proofs.Host.SavedItems

/-!
# Saved items in another instance

What a list of calls wrote for one instance of a script, the same list reads for any other
one.  Every call takes the bytes that it wrote, restores its variable, its text or its block,
and leaves alone what the other calls restore, as long as no two of them restore the same.
-/

namespace EffectHost

open Bytes Code Number FileFunctions HostFunction

namespace Code

/-- Run the statements of a program.  The values of the statements are told, too. -/
def results {σ : Type} (host : CodeHost σ) : Program → Store × σ → List Float × Store × σ
  | [], state => ([], state)
  | statement :: others, state =>
    let first := eval host statement state
    let rest := results host others first.2
    (first.1 :: rest.1, rest.2)

end Code

/-! ## Places -/

/-- A place in a store that can be restored. -/
inductive Place where
  | cell (cell : Cell)
  | text (key : Nat)
  | slot (address : Nat)

theorem Place.forall_iff {holds : Place → Prop} :
    (∀ place, holds place) ↔
      (∀ cell, holds (.cell cell)) ∧ (∀ key, holds (.text key)) ∧
        ∀ address, holds (.slot address) := by
  constructor
  · exact fun all => ⟨fun _ => all _, fun _ => all _, fun _ => all _⟩
  · rintro ⟨cells, texts, slots⟩ (cell | key | address)
    · exact cells cell
    · exact texts key
    · exact slots address

/-- What stands at a place is the same in two stores. -/
def Store.Keeps (before after : Store) : Place → Prop
  | .cell cell => after.get cell = before.get cell
  | .text key => after.strings.texts[key]? = before.strings.texts[key]?
  | .slot address => after.memory.read address = before.memory.read address

namespace Store

theorem Keeps.trans {first second third : Store} {place : Place}
    (left : first.Keeps second place) (right : second.Keeps third place) :
    first.Keeps third place := by
  cases place <;> exact Eq.trans right left

/-- A text of the script's own can always be replaced. -/
theorem setString_own {id : Float} {key : Nat} (known : Strings.key? id = some key)
    (own : key < userStrings) (store : Store) (text : String) :
    (store.setString id text).1 = true ∧
      (store.setString id text).2.strings.texts = store.strings.texts.insert key text := by
  simp [setString, Strings.set?, known, own]

end Store

theorem Strings.text_insert {id : Float} {key : Nat} (known : Strings.key? id = some key)
    (texts : Std.HashMap Nat String) (text : String) :
    Strings.text { texts := texts.insert key text } id = text := by
  simp [Strings.text, find?, known]

/-- An instance of a script: the cells of its variables, its store, and what host functions
reach besides. -/
structure ScriptInstance (ν : Type) where
  cells : ν → Cell
  store : Store := {}
  facts : Facts := {}
  caller : Caller
  around : Surroundings

namespace SavedItem

variable {ν : Type}

/-- An item with the cell of its variable. -/
def map (cells : ν → Cell) : SavedItem ν → SavedItem Cell
  | .value name => .value (cells name)
  | .text id => .text id
  | .block start count => .block start count

/-- Number of slots that the two arguments of a block describe. -/
def extent (start count : Float) : Nat :=
  if start < 0.0 || count ≤ 0.0 then 0 else toNatural count

/-- No more slots are moved than a memory can have. -/
theorem slots_eq (start count : Float) :
    slots start count = min (extent start count) maxMemorySlots := by
  rw [slots, extent]
  split
  · rw [Nat.zero_min]
  · rfl

/-- The places that an item restores. -/
def Covers : SavedItem Cell → Place → Prop
  | .value cell, .cell other => cell = other
  | .text id, .text key => Strings.key? id.value = some key
  | .block start count, .slot address =>
    toNatural start.value ≤ address ∧
      address < toNatural start.value + extent start.value count.value
  | _, _ => False

/-- Two items have no place in common. -/
def Apart (first second : SavedItem Cell) : Prop :=
  ∀ place, first.Covers place → ¬ second.Covers place

/-- An item has its places in a store: a variable, a text of the script's own, or a block
inside the limit of the memory. -/
def Fits (store : Store) : SavedItem Cell → Prop
  | .value cell => cell.index < store.cells.size
  | .text id => ∃ key < userStrings, Strings.key? id.value = some key
  | .block start count =>
    toNatural start.value + extent start.value count.value ≤ store.memory.limit

theorem Fits.of_sameShape {before after : Store} {item : SavedItem Cell} (fits : item.Fits before)
    (same : before.SameShape after) : item.Fits after := by
  cases item with
  | value cell => exact Nat.lt_of_lt_of_eq fits same.cells.symm
  | text id => exact fits
  | block start count => exact Nat.le_trans fits (Nat.le_of_eq same.limit.symm)

/-- An item is moved as a whole: it is no text with too many bytes for their number, and no
block with more slots than one call moves. -/
def Whole (store : Store) : SavedItem Cell → Prop
  | .value _ => True
  | .text id => (Utf8.encode (store.strings.text id.value)).size < 2 ^ 32
  | .block start count => extent start.value count.value ≤ maxMemorySlots

theorem slots_of_whole {store : Store} {start count : Literal}
    (whole : (SavedItem.block start count : SavedItem Cell).Whole store) :
    slots start.value count.value = extent start.value count.value := by
  rw [slots_eq]
  exact Nat.min_eq_left whole

/-- What the call that moves an item as a whole tells. -/
def told : SavedItem ν → Float
  | .value _ => 1.0
  | .text _ => 1.0
  | .block start count => Float.ofNat (extent start.value count.value)

/-- An item of one instance has been restored in the store of another one: values are rounded
to single precision, and a text that was never set is empty. -/
def RestoredIn (first second : ScriptInstance ν) (after : Store) : SavedItem ν → Prop
  | .value name =>
      after.get (second.cells name) = roundToSingle (first.store.get (first.cells name))
  | .text id => after.strings.find? id.value = some (first.store.strings.text id.value)
  | .block start count => ∀ address, toNatural start.value ≤ address →
      address < toNatural start.value + extent start.value count.value →
        after.memory.read address = roundToSingle (first.store.memory.read address)

section

variable {first second : ScriptInstance ν} {item : SavedItem ν}

/-- What has been restored stays restored while its places are left alone. -/
theorem RestoredIn.of_keeps {middle after : Store} (restored : item.RestoredIn first second middle)
    (kept : ∀ place, (item.map second.cells).Covers place → middle.Keeps after place) :
    item.RestoredIn first second after := by
  cases item with
  | value name => exact Eq.trans (kept (.cell _) rfl) restored
  | text id =>
      have same : after.strings.find? id.value = middle.strings.find? id.value := by
        rw [Strings.find?, Strings.find?]
        cases known : Strings.key? id.value with
        | none => rfl
        | some key => exact kept (.text key) known
      exact same.trans restored
  | block start count =>
      intro address low high
      exact Eq.trans (kept (.slot address) ⟨low, high⟩) (restored address low high)

/-! ## Writing and reading one item -/

/-- What the calls tell while they write. -/
theorem answer_written {item : SavedItem ν} {cells : ν → Cell} {store : Store}
    (fits : (item.map cells).Fits store) (whole : (item.map cells).Whole store)
    (before : List UInt8) :
    (item.map cells).answer store (.serializer (.written before)) = item.told := by
  have writing : (OpenFile.serializer (.written before)).isWriting = true := rfl
  cases item with
  | value name => rfl
  | text id => rfl
  | block start count =>
      have all : store.memory.covered (toNatural start.value)
          (extent start.value count.value) = extent start.value count.value := by
        apply Nat.min_eq_left
        have inside : toNatural start.value + extent start.value count.value ≤
          store.memory.limit := fits
        omega
      rw [map, answer, moveBlock, writing, if_pos rfl, slots_of_whole whole]
      dsimp only
      rw [writeBlocks_written, all]
      rfl

/-- The bytes of a block that is moved as a whole. -/
theorem bytes_block {store : Store} {start count : Literal}
    (fits : (SavedItem.block start count).Fits store)
    (whole : (SavedItem.block start count).Whole store) :
    (SavedItem.block start count).bytes store =
      blockBytes store.memory (toNatural start.value) (extent start.value count.value) := by
  have inside : toNatural start.value + extent start.value count.value ≤
    store.memory.limit := fits
  rw [bytes, slots_of_whole whole, Memory.covered, Nat.min_eq_left (by omega)]

/-- An item takes its bytes, restores its places and leaves all others alone. -/
theorem transfer_restores {store : Store} {state : Serializer} {rest : List UInt8}
    (origin : (item.map first.cells).Fits first.store)
    (whole : (item.map first.cells).Whole first.store)
    (fits : (item.map second.cells).Fits store)
    (reads : state.Reads ((item.map first.cells).bytes first.store ++ rest)) :
    ∃ after next,
      (item.map second.cells).transfer store (.serializer state) = (after, .serializer next) ∧
      (item.map second.cells).answer store (.serializer state) = item.told ∧
      item.RestoredIn first second after ∧
      (∀ place, ¬ (item.map second.cells).Covers place → store.Keeps after place) ∧
      store.SameShape after ∧ next.Reads rest := by
  have reading : (OpenFile.serializer state).isWriting = false := by
    simp [OpenFile.isWriting, reads.mode]
  cases item with
  | value name =>
      rcases OpenFile.readValue_of_reads reads with ⟨next, read, left⟩
      refine ⟨store.set (second.cells name)
        (roundToSingle (first.store.get (first.cells name))), next, ?_, ?_, ?_, ?_,
        Store.sameShape_set _ _ _, left⟩
      · rw [map, transfer, moveValue, reading, if_neg Bool.false_ne_true, read]
        rfl
      · rw [map, answer, moveValue, reading, if_neg Bool.false_ne_true, read]
        rfl
      · exact Store.get_set_self fits _
      · rintro (other | key | address) apart
        · exact Store.get_set_of_ne _ apart _
        · rfl
        · rfl
  | text id =>
      rcases fits with ⟨key, own, known⟩
      rcases OpenFile.readString_of_reads whole reads with ⟨next, read, left⟩
      rcases Store.setString_own known own store (first.store.strings.text id.value) with
        ⟨done, texts⟩
      refine ⟨(store.setString id.value (first.store.strings.text id.value)).2, next, ?_, ?_, ?_,
        ?_, Store.sameShape_setString _ _ _, left⟩
      · rw [map, transfer, moveString, reading, if_neg Bool.false_ne_true, read]
      · rw [map, answer, moveString, reading, if_neg Bool.false_ne_true, read]
        dsimp only
        rw [done]
        rfl
      · rw [RestoredIn, Strings.find?, known, texts]
        exact Std.HashMap.getElem?_insert_self
      · rintro (other | place | address) apart
        · rw [Store.setString]
          split <;> rfl
        · have other : key ≠ place := by
            intro same
            exact apart (known.trans (congrArg some same))
          rw [Store.Keeps, texts, Std.HashMap.getElem?_insert, if_neg (by simpa using other)]
        · rw [Store.setString]
          split <;> rfl
  | block start count =>
      rw [map, bytes_block origin whole] at reads
      have inside : toNatural start.value + extent start.value count.value ≤
        store.memory.limit := fits
      have room : extent start.value count.value ≤
        store.memory.limit - toNatural start.value := by omega
      rcases readBlocks_reads _ room reads with
        ⟨memory, next, read, filled, left⟩
      refine ⟨{ store with memory := memory }, next, ?_, ?_, filled.inside, ?_,
        ⟨rfl, filled.limit⟩, left⟩
      · rw [map, transfer, moveBlock, reading, if_neg Bool.false_ne_true, slots_of_whole whole,
          read]
      · rw [map, answer, moveBlock, reading, if_neg Bool.false_ne_true, slots_of_whole whole,
          read]
        rfl
      · rintro (other | key | address) apart
        · rfl
        · rfl
        · exact filled.outside address apart

/-- A restored item has the bytes of the item that it came from. -/
theorem RestoredIn.bytes_eq {after : Store} (restored : item.RestoredIn first second after)
    (origin : (item.map first.cells).Fits first.store)
    (whole : (item.map first.cells).Whole first.store)
    (fits : (item.map second.cells).Fits after) :
    (item.map second.cells).bytes after = (item.map first.cells).bytes first.store := by
  cases item with
  | value name =>
      have value : after.get (second.cells name) = _ := restored
      rw [map, map, bytes, bytes, value, narrow_roundToSingle]
  | text id =>
      have text : after.strings.find? id.value = _ := restored
      rw [map, map, bytes, bytes, Strings.text, text]
      rfl
  | block start count =>
      rw [map, map, bytes_block origin whole, bytes_block fits whole, blockBytes, blockBytes]
      apply List.flatMap_congr
      intro address member
      have range := List.mem_range'_1.mp member
      rw [restored address range.1 range.2, narrow_roundToSingle]

/-- A restored item is moved as a whole, too. -/
theorem RestoredIn.whole {after : Store} (restored : item.RestoredIn first second after)
    (whole : (item.map first.cells).Whole first.store) :
    (item.map second.cells).Whole after := by
  cases item with
  | value name => trivial
  | text id =>
      have text : after.strings.find? id.value = _ := restored
      rw [map, Whole, Strings.text, text]
      exact whole
  | block start count => exact whole

end

end SavedItem

/-! ## Lists of items -/

namespace ScriptInstance

open SavedItem

variable {ν : Type}

/-- The host functions of an instance. -/
def host (owner : ScriptInstance ν) : CodeHost Surroundings where
  call := call owner.facts owner.caller

/-- The calls that move items. -/
def program (owner : ScriptInstance ν) (items : List (SavedItem ν)) : Program :=
  items.map fun item => (item.map owner.cells).statement

/-- Move items, beginning to save or to restore: what the calls tell, and what is left. -/
def move (owner : ScriptInstance ν) (items : List (SavedItem ν)) (mode : SerializeMode)
    (data : ByteArray) : List Float × State :=
  results owner.host (owner.program items)
    (owner.store, owner.around.withSerializer (.start mode data))

/-- The bytes of the items of an instance. -/
def itemBytes (owner : ScriptInstance ν) (items : List (SavedItem ν)) : List UInt8 :=
  allBytes (items.map (SavedItem.map owner.cells)) owner.store

/-- Items are written one after another, and the store stays as it is. -/
theorem results_written {owner : ScriptInstance ν} {items : List (SavedItem ν)}
    (fits : ∀ item ∈ items, (item.map owner.cells).Fits owner.store)
    (whole : ∀ item ∈ items, (item.map owner.cells).Whole owner.store) (before : List UInt8) :
    results owner.host (owner.program items)
        (owner.store, owner.around.withSerializer (.written before)) =
      (items.map told, owner.store,
        owner.around.withSerializer (.written (before ++ owner.itemBytes items))) := by
  induction items generalizing before with
  | nil =>
      have nothing : owner.itemBytes [] = [] := rfl
      rw [nothing, List.append_nil]
      rfl
  | cons item others ih =>
      rcases List.forall_mem_cons.mp fits with ⟨here, behind⟩
      rcases List.forall_mem_cons.mp whole with ⟨whole, others'⟩
      have moved : eval owner.host (item.map owner.cells).statement
          (owner.store, owner.around.withSerializer (.written before)) = _ :=
        eval_statement_of_transfer owner.facts owner.caller
          (transfer_written (item.map owner.cells) owner.store before) owner.around
      have rest := ih behind others' (before ++ (item.map owner.cells).bytes owner.store)
      rw [program] at rest
      rw [program, List.map_cons, results, moved, answer_written here whole, rest,
        List.append_assoc]
      rfl

/-- What saving items comes to. -/
theorem move_written (owner : ScriptInstance ν) {items : List (SavedItem ν)}
    (fits : ∀ item ∈ items, (item.map owner.cells).Fits owner.store)
    (whole : ∀ item ∈ items, (item.map owner.cells).Whole owner.store) :
    owner.move items .writing ByteArray.empty = (items.map told, owner.store,
      owner.around.withSerializer (.written (owner.itemBytes items))) :=
  results_written fits whole []

/-- Items are read one after another.  Each is restored, and what none of them covers is left
alone. -/
theorem results_restored {first second : ScriptInstance ν} {items : List (SavedItem ν)}
    (apart : (items.map (SavedItem.map second.cells)).Pairwise Apart)
    (origin : ∀ item ∈ items, (item.map first.cells).Fits first.store)
    (whole : ∀ item ∈ items, (item.map first.cells).Whole first.store) {store : Store}
    (fits : ∀ item ∈ items, (item.map second.cells).Fits store) {state : Serializer}
    (reads : state.Reads (first.itemBytes items)) :
    ∃ after next, results second.host (second.program items)
        (store, second.around.withSerializer state) =
          (items.map told, after, second.around.withSerializer next) ∧
      (∀ item ∈ items, item.RestoredIn first second after) ∧
      (∀ place, (∀ item ∈ items, ¬ (item.map second.cells).Covers place) →
        store.Keeps after place) ∧
      store.SameShape after ∧ next.Reads [] := by
  induction items generalizing store state with
  | nil =>
      refine ⟨store, state, rfl, List.forall_mem_nil _, ?_, .refl store, reads⟩
      intro place _
      cases place <;> rfl
  | cons item others ih =>
      rw [List.map_cons, List.pairwise_cons] at apart
      rcases List.forall_mem_cons.mp origin with ⟨originHere, originBehind⟩
      rcases List.forall_mem_cons.mp whole with ⟨wholeHere, wholeBehind⟩
      rcases List.forall_mem_cons.mp fits with ⟨fitsHere, fitsBehind⟩
      rw [itemBytes, List.map_cons, allBytes, List.flatMap_cons] at reads
      rcases transfer_restores originHere wholeHere fitsHere reads with
        ⟨middle, next, moved, told, restored, kept, shape, left⟩
      rcases ih apart.2 originBehind wholeBehind
          (fun item member => (fitsBehind item member).of_sameShape shape) left with
        ⟨after, last, ran, rest, keptBehind, shapeBehind, done⟩
      refine ⟨after, last, ?_, ?_, ?_, shape.trans shapeBehind, done⟩
      · have first : eval second.host (item.map second.cells).statement
            (store, second.around.withSerializer state) = _ :=
          eval_statement_of_transfer second.facts second.caller moved second.around
        rw [program] at ran
        rw [program, List.map_cons, results, first, told, ran]
        rfl
      · -- no later item restores what this one has restored
        have still := restored.of_keeps fun place covered => keptBehind place
          fun other member => apart.1 _ (List.mem_map_of_mem member) place covered
        exact List.forall_mem_cons.mpr ⟨still, rest⟩
      · intro place free
        rcases List.forall_mem_cons.mp free with ⟨freeHere, freeBehind⟩
        exact (kept place freeHere).trans (keptBehind place freeBehind)

/-- Items that the first instance saved have been restored for the second one: all of them are
there, every call told the same in both runs, no byte was left, and saving them once more gives
the same bytes. -/
def Exchanges (first second : ScriptInstance ν) (items : List (SavedItem ν)) : Prop :=
  let wrote := first.move items .writing ByteArray.empty
  let data := wrote.2.2.files.serializer.stream.bytes
  let read := second.move items .reading data
  let unread := read.2.2.files.serializer.stream
  let later : ScriptInstance ν := { second with store := read.2.1, around := read.2.2 }
  let again := later.move items .writing ByteArray.empty
  (∀ item ∈ items, item.RestoredIn first second read.2.1) ∧ read.1 = wrote.1 ∧
    unread.bytes.data.toList.drop unread.position = [] ∧
    again.2.2.files.serializer.stream.bytes = data

/-- What one instance of a script saved, any other one restores: if no two items have a place in
common, if all of them have their places in both stores, and if each is moved as a whole. -/
theorem saved_items_restore_another_instance {first second : ScriptInstance ν}
    {items : List (SavedItem ν)} (apart : (items.map (SavedItem.map second.cells)).Pairwise Apart)
    (origin : ∀ item ∈ items, (item.map first.cells).Fits first.store)
    (fits : ∀ item ∈ items, (item.map second.cells).Fits second.store)
    (whole : ∀ item ∈ items, (item.map first.cells).Whole first.store) :
    first.Exchanges second items := by
  have wrote := first.move_written origin whole
  rcases results_restored apart origin whole fits
      (Serializer.reads_start (pack (first.itemBytes items))) with
    ⟨after, next, read, restored, _, shape, left⟩
  let later : ScriptInstance ν :=
    { second with store := after, around := second.around.withSerializer next }
  have fitsAgain : ∀ item ∈ items, (item.map second.cells).Fits after :=
    fun item member => (fits item member).of_sameShape shape
  have again := later.move_written fitsAgain
    fun item member => (restored item member).whole (whole item member)
  have bytes : later.itemBytes items = first.itemBytes items := by
    rw [itemBytes, itemBytes, allBytes, allBytes, List.flatMap_map, List.flatMap_map]
    apply List.flatMap_congr
    intro item member
    exact (restored item member).bytes_eq (origin item member) (whole item member)
      (fitsAgain item member)
  rw [bytes] at again
  have data : (first.move items .writing ByteArray.empty).2.2.files.serializer.stream.bytes =
      pack (first.itemBytes items) := by
    rw [wrote]
    rfl
  have back : second.move items .reading (pack (first.itemBytes items)) = _ := read
  rw [Exchanges, data, back, wrote]
  dsimp only
  exact ⟨restored, rfl, left.rest,
    congrArg (fun moved => moved.2.2.files.serializer.stream.bytes) again⟩

/-- Variables in other cells, a text, and a block of more slots than are moved at a time. -/
theorem saved_items_restore_another_instance_sample :
    let around : Surroundings := { input := .new 64 true, output := .new 64 true }
    let first : ScriptInstance Nat :=
      { cells := fun name => ⟨name⟩
        store := { cells := #[0.1, 2.0]
                   memory := ({} : Memory).write 4100 0.1
                   strings := { texts := (∅ : Std.HashMap Nat String).insert 7 "take" } }
        caller := { role := .audio }
        around := around }
    let second : ScriptInstance Nat :=
      { cells := fun name => ⟨2 - name⟩
        store := { cells := #[5.0, 6.0, 7.0] }
        caller := { role := .audio }
        around := around }
    let items : List (SavedItem Nat) :=
      [.block ⟨false, 0.0⟩ ⟨false, 5000.0⟩, .value 0, .text ⟨false, 7.0⟩, .value 1]
    ((items.map (SavedItem.map second.cells)).Pairwise Apart ∧
      (∀ item ∈ items, (item.map first.cells).Fits first.store) ∧
      (∀ item ∈ items, (item.map second.cells).Fits second.store) ∧
      ∀ item ∈ items, (item.map first.cells).Whole first.store) ∧
    first.Exchanges second items := by
  intro around first second items
  have apart : (items.map (SavedItem.map second.cells)).Pairwise Apart := by
    simp only [items, List.map_cons, List.map_nil, SavedItem.map, List.pairwise_cons]
    simp [Apart, Covers, Place.forall_iff, second]
  have key : Strings.key? 7.0 = some 7 := by decide +kernel
  have room : toNatural 0.0 + SavedItem.extent 0.0 5000.0 ≤ standardMemorySlots ∧
      SavedItem.extent 0.0 5000.0 ≤ maxMemorySlots := by decide +kernel
  have origin : ∀ item ∈ items, (item.map first.cells).Fits first.store := by
    simp only [items, List.forall_mem_cons]
    exact ⟨room.1, (by decide : 0 < 2), ⟨7, by decide, key⟩, (by decide : 1 < 2),
      List.forall_mem_nil _⟩
  have fits : ∀ item ∈ items, (item.map second.cells).Fits second.store := by
    simp only [items, List.forall_mem_cons]
    exact ⟨room.1, (by decide : 2 < 3), ⟨7, by decide, key⟩, (by decide : 1 < 3),
      List.forall_mem_nil _⟩
  have whole : ∀ item ∈ items, (item.map first.cells).Whole first.store := by
    have text : first.store.strings.text 7.0 = "take" := Strings.text_insert key ∅ "take"
    have short : (Utf8.encode (first.store.strings.text 7.0)).size < 2 ^ 32 := by
      rw [text]
      decide +kernel
    simp only [items, List.forall_mem_cons]
    exact ⟨room.2, trivial, short, trivial, List.forall_mem_nil _⟩
  exact ⟨⟨apart, origin, fits, whole⟩,
    saved_items_restore_another_instance apart origin fits whole⟩

/-! ## What is not restored -/

/-- The bytes that saving one item comes to. -/
theorem saved_singleton (owner : ScriptInstance ν) (item : SavedItem ν) :
    (owner.move [item] .writing ByteArray.empty).2.2.files.serializer.stream.bytes =
      pack ((item.map owner.cells).bytes owner.store) := by
  have moved : eval owner.host (item.map owner.cells).statement
      (owner.store, owner.around.withSerializer (.written [])) = _ :=
    eval_statement_of_transfer owner.facts owner.caller
      (transfer_written (item.map owner.cells) owner.store []) owner.around
  exact congrArg (fun result => result.2.2.files.serializer.stream.bytes) moved

/-- The store that restoring one block leaves. -/
theorem restored_block (owner : ScriptInstance ν) (start count : Literal) (data : ByteArray) :
    (owner.move [.block start count] .reading data).2.1 =
      (readBlocks (slots start.value count.value) (toNatural start.value) owner.store
        (.serializer (.start .reading data))).2.1 := by
  have moved := eval_statement owner.facts owner.caller (.block start count)
    (owner.store, owner.around.withSerializer (.start .reading data))
  exact congrArg (fun result => result.2.1) moved

/-- The store that restoring one text leaves, if there is one to be read. -/
theorem restored_text (owner : ScriptInstance ν) (id : Literal) {data : ByteArray}
    {text : String} {next : OpenFile}
    (read : (OpenFile.serializer (.start .reading data)).readString = (some text, next)) :
    (owner.move [.text id] .reading data).2.1 = (owner.store.setString id.value text).2 := by
  have moved := eval_statement owner.facts owner.caller (.text id)
    (owner.store, owner.around.withSerializer (.start .reading data))
  have transferred : ((SavedItem.text id).transfer owner.store
      (.serializer (.start .reading data))).1 = (owner.store.setString id.value text).2 := by
    have reading : (OpenFile.serializer (.start .reading data)).isWriting = false := rfl
    rw [transfer, moveString, reading, if_neg Bool.false_ne_true, read]
  exact (congrArg (fun result => result.2.1) moved).trans transferred

/-- The slot behind those that one call moves is not restored. -/
theorem not_exchanges_of_long {first second : ScriptInstance ν} {start count : Literal}
    (long : maxMemorySlots < extent start.value count.value)
    (origin : (SavedItem.block start count).Fits first.store)
    (fits : (SavedItem.block start count).Fits second.store)
    (differ : second.store.memory.read (toNatural start.value + maxMemorySlots) ≠
      roundToSingle (first.store.memory.read (toNatural start.value + maxMemorySlots))) :
    ¬ first.Exchanges second [.block start count] := by
  rintro ⟨restored, -⟩
  rw [saved_singleton, restored_block] at restored
  have originInside : toNatural start.value + extent start.value count.value ≤
    first.store.memory.limit := origin
  have inside : toNatural start.value + extent start.value count.value ≤
    second.store.memory.limit := fits
  have moved : slots start.value count.value = maxMemorySlots := by
    rw [slots_eq]
    omega
  have bytes : (SavedItem.block start count).bytes first.store =
      blockBytes first.store.memory (toNatural start.value) maxMemorySlots := by
    rw [SavedItem.bytes, moved, Memory.covered, Nat.min_eq_left (by omega)]
  have reads : (Serializer.start .reading (pack ((SavedItem.block start count).bytes
      first.store))).Reads (blockBytes first.store.memory (toNatural start.value)
        maxMemorySlots ++ []) := by
    rw [List.append_nil, ← bytes]
    exact Serializer.reads_start _
  have room : maxMemorySlots ≤ second.store.memory.limit - toNatural start.value := by omega
  rcases readBlocks_reads maxMemorySlots room reads with
    ⟨memory, next, read, filled, _⟩
  have slot : memory.read (toNatural start.value + maxMemorySlots) =
      roundToSingle (first.store.memory.read (toNatural start.value + maxMemorySlots)) := by
    have whole := restored _ List.mem_cons_self
    rw [moved, SavedItem.map, read] at whole
    exact whole _ (by omega) (by omega)
  rw [filled.outside _ (by omega)] at slot
  exact differ slot

/-- A text of four gigabytes is written behind the number zero, and read as nothing. -/
theorem not_exchanges_of_large {first second : ScriptInstance ν} {id : Literal}
    (large : (Utf8.encode (first.store.strings.text id.value)).size = 2 ^ 32)
    (fits : (SavedItem.text id).Fits second.store) : ¬ first.Exchanges second [.text id] := by
  rintro ⟨restored, -⟩
  rw [saved_singleton] at restored
  rcases fits with ⟨key, own, known⟩
  have bytes : (SavedItem.text id).bytes first.store =
      Bytes.ofText "" ++ (Utf8.encode (first.store.strings.text id.value)).data.toList := by
    have nothing : Bytes.ofText "" = ofWord (UInt32.ofNat (2 ^ 32)) := by decide +kernel
    rw [SavedItem.bytes, nothing, Bytes.ofText, large]
  have reads : (Serializer.start .reading (pack ((SavedItem.text id).bytes
      first.store))).Reads (Bytes.ofText "" ++
        (Utf8.encode (first.store.strings.text id.value)).data.toList) := by
    rw [← bytes]
    exact Serializer.reads_start _
  rcases OpenFile.readString_of_reads (by decide +kernel) reads with ⟨next, read, _⟩
  rcases Store.setString_own known own second.store "" with ⟨_, texts⟩
  have lost : some "" = some (first.store.strings.text id.value) := by
    have whole := restored _ List.mem_cons_self
    rw [SavedItem.map, restored_text second id read, RestoredIn, Strings.find?, known,
      Option.bind_some, texts, Std.HashMap.getElem?_insert_self] at whole
    exact whole
  rw [← Option.some.inj lost] at large
  exact absurd large (by decide +kernel)

/-- A block is not restored past the limit of the memory. -/
theorem not_exchanges_of_small {first second : ScriptInstance ν} {start count : Literal}
    {address : Nat} (low : toNatural start.value ≤ address)
    (high : address < toNatural start.value + extent start.value count.value)
    (outside : second.store.memory.limit ≤ address)
    (differ : roundToSingle (first.store.memory.read address) ≠ 0.0) :
    ¬ first.Exchanges second [.block start count] := by
  rintro ⟨restored, -⟩
  rw [restored_block] at restored
  have slot := restored _ List.mem_cons_self address low high
  have shape := sameShape_readBlocks (slots start.value count.value) (toNatural start.value)
    second.store (.serializer (.start .reading
      (first.move [.block start count] .writing
        ByteArray.empty).2.2.files.serializer.stream.bytes))
  rw [← slot, Memory.read, if_neg (by rw [shape.limit]; omega)] at differ
  exact differ rfl

theorem size_encode_replicate (count : Nat) :
    (Utf8.encode (String.ofList (List.replicate count 'a'))).size = count := by
  have letter : String.utf8EncodeChar 'a' = [97] := by decide
  have bytes := Utf8.toList_encode (String.ofList (List.replicate count 'a'))
  rw [String.toList_ofList] at bytes
  have size : (Utf8.encode (String.ofList (List.replicate count 'a'))).size =
      ((List.replicate count 'a').flatMap String.utf8EncodeChar).length :=
    congrArg List.length bytes
  rw [size, List.length_flatMap, List.map_replicate, letter]
  simp

/-- Three lists that are not restored: a block of one slot more than one call moves, inside the
memory of both instances; a text of four gigabytes; and a block that is not inside the memory of
the second instance.  The memory of the first two is larger than compiling ever makes it, by the
one slot, and only a host that owns the machine can set such a limit. -/
theorem some_saved_items_are_not_restored :
    let around : Surroundings := { input := .new 64 true, output := .new 64 true }
    let owner (store : Store) : ScriptInstance Nat :=
      { cells := fun name => ⟨name⟩, store := store, caller := { role := .audio },
        around := around }
    let block : SavedItem Nat := .block ⟨false, 0.0⟩ ⟨false, 33554433.0⟩
    let wide := owner { memory := ({ limit := 33554433 } : Memory).write 33554432 1.0 }
    let wideToo := owner { memory := { limit := 33554433 } }
    let text : SavedItem Nat := .text ⟨false, 7.0⟩
    let large := String.ofList (List.replicate (2 ^ 32) 'a')
    let wordy := owner { strings := { texts := (∅ : Std.HashMap Nat String).insert 7 large } }
    let pair : SavedItem Nat := .block ⟨false, 7.0⟩ ⟨false, 2.0⟩
    let full := owner { memory := (({} : Memory).write 7 1.0).write 8 2.0 }
    let small := owner { memory := { limit := 8 } }
    (((block.map wide.cells).Fits wide.store ∧ (block.map wideToo.cells).Fits wideToo.store) ∧
      ¬ wide.Exchanges wideToo [block]) ∧
    (((text.map wordy.cells).Fits wordy.store ∧ (text.map small.cells).Fits small.store) ∧
      ¬ wordy.Exchanges small [text]) ∧
    ((pair.map full.cells).Fits full.store ∧ ¬ full.Exchanges small [pair]) := by
  intro around owner block wide wideToo text large wordy pair full small
  have key : Strings.key? 7.0 = some 7 := by decide +kernel
  have one : roundToSingle 1.0 = 1.0 ∧ roundToSingle 2.0 = 2.0 := by decide +kernel
  have numerals : toNatural 0.0 = 0 ∧ extent 0.0 33554433.0 = 33554433 ∧ toNatural 7.0 = 7 ∧
      extent 7.0 2.0 = 2 ∧ maxMemorySlots = 33554432 := by
    decide +kernel
  rcases numerals with ⟨zero, long, seven, two, most⟩
  have wideFits : (block.map wide.cells).Fits wide.store := by
    have limit : wide.store.memory.limit = 33554433 := Store.limit_write _ _ _
    change toNatural 0.0 + extent 0.0 33554433.0 ≤ wide.store.memory.limit
    omega
  have wideTooFits : (block.map wideToo.cells).Fits wideToo.store := by
    change toNatural 0.0 + extent 0.0 33554433.0 ≤ 33554433
    omega
  have known : (text.map small.cells).Fits small.store := ⟨7, by decide, key⟩
  refine ⟨⟨⟨wideFits, wideTooFits⟩, ?_⟩, ⟨⟨⟨7, by decide, key⟩, known⟩, ?_⟩, ?_, ?_⟩
  · refine not_exchanges_of_long ?_ wideFits wideTooFits ?_
    · change maxMemorySlots < extent 0.0 33554433.0
      omega
    · have stored : wide.store.memory.read 33554432 = 1.0 :=
        Memory.read_write_self (by decide) 1.0
      have blank : wideToo.store.memory.read 33554432 = 0.0 := by
        simp [wideToo, owner, Memory.read]
      change wideToo.store.memory.read (toNatural 0.0 + maxMemorySlots) ≠
        roundToSingle (wide.store.memory.read (toNatural 0.0 + maxMemorySlots))
      rw [zero, most, Nat.zero_add, stored, blank, one.1]
      decide +kernel
  · apply not_exchanges_of_large _ known
    have held : wordy.store.strings.text 7.0 = large := Strings.text_insert key ∅ large
    change (Utf8.encode (wordy.store.strings.text 7.0)).size = 2 ^ 32
    rw [held]
    exact size_encode_replicate (2 ^ 32)
  · have limit : full.store.memory.limit = standardMemorySlots :=
      (Store.limit_write _ _ _).trans (Store.limit_write _ _ _)
    change toNatural 7.0 + extent 7.0 2.0 ≤ full.store.memory.limit
    rw [seven, two, limit]
    decide
  · have stored : full.store.memory.read 8 = 2.0 :=
      Memory.read_write_self (by rw [Store.limit_write]; decide) 2.0
    have low : toNatural 7.0 ≤ 8 := by omega
    have high : 8 < toNatural 7.0 + extent 7.0 2.0 := by omega
    refine not_exchanges_of_small low high (Nat.le_refl 8) ?_
    · rw [stored, one.2]
      decide +kernel

end ScriptInstance
end EffectHost

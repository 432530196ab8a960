import EffectHost.Proofs.Host.Frame
import EffectHost.Proofs.Host.Variables
import EffectHost.Proofs.Number.Single

/-!
# Restored stores

Restoring what was saved puts values back rounded to single precision, and texts as they
were.  A store that was restored in this way holds nothing new as far as saving goes: each
of its values, rounded once more, is the value of the store that it came from.  Which cells
have been rounded so far is told apart.
-/

namespace EffectHost

open Number

/-! ## Memory -/

namespace Memory

theorem read_write_self {memory : Memory} {address : Nat} (inside : address < memory.limit)
    (value : Float) : (memory.write address value).read address = value := by
  simp [write, read, inside]

theorem read_write_of_ne (memory : Memory) {address other : Nat} (different : address ≠ other)
    (value : Float) : (memory.write address value).read other = memory.read other := by
  rw [write]
  split
  · simp [read, Std.HashMap.getD_insert, different]
  · rfl

theorem toList_readRange (memory : Memory) (address count : Nat) :
    (memory.readRange address count).toList =
      (List.range' address (memory.covered address count)).map memory.read := by
  apply List.ext_getElem
  · simp [readRange]
  · intro position _ _
    simp [readRange]

/-- Memory in which the slots of a range hold new values. -/
structure Filled (value : Nat → Float) (address count : Nat) (before after : Memory) : Prop where
  limit : after.limit = before.limit
  inside : ∀ place, address ≤ place → place < address + count → after.read place = value place
  outside : ∀ place, ¬ (address ≤ place ∧ place < address + count) →
    after.read place = before.read place

namespace Filled

variable {value : Nat → Float} {address count : Nat} {before after : Memory}

theorem zero (value : Nat → Float) (address : Nat) (memory : Memory) :
    Filled value address 0 memory memory :=
  ⟨rfl, fun _ low high => absurd high (by omega), fun _ _ => rfl⟩

/-- Two ranges next to each other are one range. -/
theorem append {middle : Memory} {more : Nat} (front : Filled value address count before middle)
    (back : Filled value (address + count) more middle after) :
    Filled value address (count + more) before after := by
  refine ⟨back.limit.trans front.limit, ?_, ?_⟩
  · intro place low high
    by_cases later : address + count ≤ place
    · exact back.inside place later (by omega)
    · rw [back.outside place (by omega)]
      exact front.inside place low (by omega)
  · intro place out
    rw [back.outside place (by omega)]
    exact front.outside place (by omega)

theorem write {memory : Memory} (value : Nat → Float) (below : address < memory.limit) :
    Filled value address 1 memory (memory.write address (value address)) := by
  refine ⟨Store.limit_write _ _ _, ?_, ?_⟩
  · intro place low high
    have same : place = address := by omega
    rw [same, read_write_self below]
  · intro place out
    exact read_write_of_ne memory (by omega) _

/-- A range below the limit is stored as a whole. -/
theorem writeRange (value : Nat → Float) {memory : Memory}
    (room : count ≤ memory.limit - address) :
    let values := ((List.range' address count).map value).toArray
    (memory.writeRange address values).1 = count ∧
      Filled value address count memory (memory.writeRange address values).2 := by
  intro values
  have stored : ∀ (count address : Nat) (memory : Memory), count ≤ memory.limit - address →
      Filled value address count memory
        (((List.range' address count).map value).foldl (fun state value =>
          (state.1 + 1, state.2.write state.1 value)) (address, memory)).2 := by
    intro count
    induction count with
    | zero => exact fun address memory _ => zero value address memory
    | succ count ih =>
        intro address memory room
        have inside : address < memory.limit := by omega
        have first := write value inside
        have rest := ih (address + 1) (memory.write address (value address))
          (by rw [Store.limit_write]; omega)
        rw [List.range'_succ, List.map_cons, List.foldl_cons, Nat.add_comm count]
        exact first.append rest
  have size : values.size = count := by simp [values]
  have covered : memory.covered address values.size = count := by
    rw [size]
    exact Nat.min_eq_left room
  have all : values.toList.take count = values.toList :=
    List.take_of_length_le (Nat.le_of_eq size)
  refine ⟨covered, ?_⟩
  rw [Memory.writeRange]
  dsimp only
  rw [covered, all]
  exact stored count address memory room

end Filled

/-- Memory that holds what another one held, with values rounded here and there. -/
structure Rounded (origin memory : Memory) : Prop where
  limit : memory.limit = origin.limit
  values : ∀ address, narrow (memory.read address) = narrow (origin.read address)

namespace Rounded

variable {origin memory : Memory}

theorem refl (memory : Memory) : Rounded memory memory :=
  ⟨rfl, fun _ => rfl⟩

/-- A range of values may be put back rounded. -/
theorem fill (rounded : Rounded origin memory) {address count : Nat} {after : Memory}
    (filled : Filled (fun place => roundToSingle (origin.read place)) address count memory
      after) : Rounded origin after := by
  refine ⟨filled.limit.trans rounded.limit, ?_⟩
  intro place
  by_cases inside : address ≤ place ∧ place < address + count
  · rw [filled.inside place inside.1 inside.2, narrow_roundToSingle]
  · rw [filled.outside place inside]
    exact rounded.values place

end Rounded
end Memory

/-! ## Texts -/

namespace Strings

/-- The text of a number; a number without one stands for the empty text. -/
def text (strings : Strings) (id : Float) : String :=
  (strings.find? id).getD ""

theorem text_set? {strings after : Strings} {id : Float} {text : String}
    (stored : strings.set? id text = some after) (same : strings.text id = text) (other : Float) :
    after.text other = strings.text other := by
  rw [set?] at stored
  split at stored
  · next key known =>
      split at stored
      · cases stored
        cases wanted : key? other with
        | none => simp [Strings.text, find?, wanted]
        | some place =>
            by_cases equal : key = place
            · subst equal
              have before : strings.text other = strings.text id := by
                simp only [Strings.text, find?, wanted, known]
              rw [before, same]
              simp [Strings.text, find?, wanted]
            · simp [Strings.text, find?, wanted, Std.HashMap.getElem?_insert, equal]
      · cases stored
  · cases stored

end Strings

/-! ## Stores -/

namespace Store

/-- A store that holds what another one held, with the values of some cells rounded, and
those in memory here and there. -/
structure Restored (rounded : Cell → Prop) (origin store : Store) : Prop where
  round : ∀ cell, rounded cell → store.get cell = roundToSingle (origin.get cell)
  exact : ∀ cell, ¬ rounded cell → store.get cell = origin.get cell
  memory : origin.memory.Rounded store.memory
  texts : ∀ id, store.strings.text id = origin.strings.text id

namespace Restored

variable {rounded : Cell → Prop} {origin store : Store}

/-- Saved again, a value is the one that was saved. -/
theorem narrow_get (restored : Restored rounded origin store) (cell : Cell) :
    narrow (store.get cell) = narrow (origin.get cell) := by
  by_cases done : rounded cell
  · rw [restored.round cell done, narrow_roundToSingle]
  · rw [restored.exact cell done]

/-- Where there is no cell there is nothing to put back. -/
theorem get_of_outside (restored : Restored rounded origin store) {cell : Cell}
    (outside : ¬ cell.index < store.cells.size) :
    store.get cell = roundToSingle (origin.get cell) := by
  by_cases done : rounded cell
  · exact restored.round cell done
  · have zero : store.get cell = 0.0 := by
      simp [Store.get, outside]
    rw [← restored.exact cell done, zero]
    decide +kernel

/-- A value is put back rounded. -/
theorem set (restored : Restored rounded origin store) (cell : Cell) :
    Restored (fun other => cell = other ∨ rounded other) origin
      (store.set cell (roundToSingle (origin.get cell))) := by
  refine ⟨?_, ?_, restored.memory, restored.texts⟩
  · intro other put
    by_cases same : cell = other
    · subst same
      by_cases inside : cell.index < store.cells.size
      · exact get_set_self inside _
      · have nothing : store.set cell (roundToSingle (origin.get cell)) = store := by
          simp [Store.set, Array.setIfInBounds, inside]
        rw [nothing]
        exact restored.get_of_outside inside
    · rw [get_set_of_ne _ same]
      exact restored.round other (put.resolve_left same)
  · intro other kept
    rw [not_or] at kept
    rw [get_set_of_ne _ kept.1]
    exact restored.exact other kept.2

/-- A text is put back as it was. -/
theorem setString (restored : Restored rounded origin store) (id : Float) :
    Restored rounded origin (store.setString id (origin.strings.text id)).2 := by
  rw [Store.setString]
  split
  · next strings stored =>
      refine ⟨restored.round, restored.exact, restored.memory, ?_⟩
      intro other
      rw [Strings.text_set? stored (restored.texts id)]
      exact restored.texts other
  · exact restored

end Restored
end Store
end EffectHost

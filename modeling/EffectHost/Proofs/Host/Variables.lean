import EffectHost.Host.Variable

/-!
# The cells of host variables

The variables of the host have cells of their own, which are the first ones of every
machine.  Where these cells are there, setting one variable is seen by reading it and by
reading no other.
-/

namespace EffectHost
namespace HostVariable

/-- A variable is found by its cell. -/
theorem all_getElem?_index (name : HostVariable) : all[name.cell.index]? = some name := by
  cases name with
  | channel index =>
      revert index
      decide
  | slider slot =>
      revert slot
      decide
  | _ => rfl

theorem index_lt_length (name : HostVariable) : name.cell.index < all.length :=
  (List.getElem?_eq_some_iff.mp (all_getElem?_index name)).1

/-- No two variables share a cell. -/
theorem cell_injective {first second : HostVariable} (same : first.cell = second.cell) :
    first = second := by
  have found := all_getElem?_index first
  rw [same, all_getElem?_index second] at found
  exact (Option.some.inj found).symm

@[simp] theorem cell_inj {first second : HostVariable} :
    first.cell = second.cell ↔ first = second :=
  ⟨cell_injective, congrArg cell⟩

end HostVariable

namespace Store

open HostVariable

/-- The cells of all host variables are there. -/
def Hosted (store : Store) : Prop :=
  HostVariable.all.length ≤ store.cells.size

theorem get_set_self {store : Store} {cell : Cell} (inside : cell.index < store.cells.size)
    (value : Float) : (store.set cell value).get cell = value := by
  simp [get, set, Array.getD_eq_getD_getElem?, inside]

theorem get_set_of_ne (store : Store) {first second : Cell} (different : first ≠ second)
    (value : Float) : (store.set first value).get second = store.get second := by
  have apart : first.index ≠ second.index := by
    intro same
    exact different (congrArg Cell.mk same)
  simp [get, set, Array.getD_eq_getD_getElem?, apart]

theorem read_write_self {store : Store} (hosted : store.Hosted) (name : HostVariable)
    (value : Float) : (store.write name value).read name = value :=
  get_set_self (Nat.lt_of_lt_of_le (index_lt_length name) hosted) value

theorem read_write_of_ne (store : Store) {first second : HostVariable}
    (different : first ≠ second) (value : Float) :
    (store.write first value).read second = store.read second :=
  get_set_of_ne store (fun same => different (cell_injective same)) value

theorem hosted_hosted : Machine.hosted.store.Hosted := by
  simp [Hosted, Machine.hosted]

end Store
end EffectHost

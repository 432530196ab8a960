import EffectHost.Proofs.Code.MemoryHistory

/-!
# Memory in a list that grows

Memory may be held in a list that is only as long as the slots in use ask for.  Storing past its
end makes it longer, and setting a limit shorter.  The list is never longer than the limit, and it
cannot be longer than the longest list: an access fails if it asks for that, and for no other
reason.  No address on the way is greater than there are addresses, and no piece of the list is
missed.
-/

namespace EffectHost

open Number

/-- Memory of which no slots past the last one that was used are held. -/
structure Backing where
  limit : Nat := standardMemorySlots
  slots : List Float := []

namespace Backing

/-- The sum of two addresses.  There is none past the greatest address. -/
def sum? (one two : Nat) : Option Nat :=
  if one + two ≤ greatestUnsigned.toNat then some (one + two) else none

/-- The list with zeros behind it, where it is shorter than a length.  There is none if no list has
that length. -/
def grow? (slots : List Float) (length : Nat) : Option (List Float) :=
  if slots.length < length then
    if length ≤ longestList then some (slots ++ List.replicate (length - slots.length) 0.0)
    else none
  else some slots

/-- The list with other values from a place on up to another one.  Both places must be in the
list, and there must be as many values as there are places between them. -/
def replace? (slots : List Float) (start stop : Nat) (values : List Float) :
    Option (List Float) :=
  if start ≤ stop ∧ stop ≤ slots.length ∧ values.length = stop - start then
    some (slots.take start ++ (values ++ slots.drop stop))
  else none

/-- Fill a buffer with the values from an address on; also how many are below the limit. -/
def read? (backing : Backing) (address count : Nat) : Option (Nat × List Float) := do
  let covered := min count (backing.limit - address)
  let values ← (List.range count).mapM fun position =>
    if position < covered then (sum? address position).map (backing.slots.getD · 0.0)
    else some 0.0
  return (covered, values)

/-- Store values from an address on, as far as the limit allows; also how many were stored. -/
def write? (backing : Backing) (address : Nat) (values : List Float) : Option (Nat × Backing) :=
  let covered := min values.length (backing.limit - address)
  if covered = 0 then some (0, backing)
  else do
    let stop ← sum? address covered
    let grown ← grow? backing.slots stop
    let slots ← replace? grown address stop (values.take covered)
    return (covered, { backing with slots := slots })

/-- The value at a position. -/
def load? (backing : Backing) (position : Float) : Option Float :=
  if position < 0.0 then some 0.0
  else (backing.read? (toNatural position) 1).map (·.2.headD 0.0)

/-- Store a value at a position. -/
def store? (backing : Backing) (position value : Float) : Option Backing :=
  if 0.0 ≤ position then (backing.write? (toNatural position) [value]).map (·.2)
  else some backing

/-- What an access results in, and the memory afterwards.  There is none if it fails. -/
def access? (backing : Backing) : Access → Option (Access.Result × Backing)
  | .read address count =>
    (backing.read? address.toNat count).map fun filled => (.filled filled.1 filled.2, backing)
  | .write address values =>
    (backing.write? address.toNat values.toList).map fun done => (.stored done.1, done.2)
  | .load position => (backing.load? position).map fun value => (.value value, backing)
  | .store position value => (backing.store? position value).map fun next => (.nothing, next)
  | .limit slots => some (.nothing, ⟨slots.toNat, backing.slots.take slots.toNat⟩)
  | .clear => some (.nothing, { backing with slots := [] })

/-- The memory after some accesses. -/
def accessAll? (accesses : List Access) (backing : Backing) : Option Backing :=
  accesses.foldlM (fun backing access => (backing.access? access).map (·.2)) backing

/-- The list holds what is remembered of some accesses, and is no longer than the limit or the
longest list. -/
structure Remembers (backing : Backing) (past : List Access) : Prop where
  limit : backing.limit = limitOf past
  size : backing.slots.length ≤ backing.limit
  held : backing.slots.length ≤ longestList
  value : ∀ address, backing.slots.getD address 0.0 = remembered past address

theorem remembers_nil : Remembers {} [] where
  limit := rfl
  size := Nat.zero_le _
  held := Nat.zero_le _
  value _ := rfl

theorem sum?_eq {one two : Nat} (small : one + two ≤ greatestUnsigned.toNat) :
    sum? one two = some (one + two) :=
  if_pos small

theorem grow?_eq_some {slots : List Float} {length : Nat} (near : length ≤ longestList) :
    grow? slots length = some (slots ++ List.replicate (length - slots.length) 0.0) := by
  rw [grow?, if_pos near]
  split
  · rfl
  · next long =>
      rw [Nat.sub_eq_zero_of_le (Nat.not_lt.mp long), List.replicate_zero, List.append_nil]

theorem grow?_eq_none {slots : List Float} {length : Nat} (held : slots.length ≤ longestList)
    (far : longestList < length) : grow? slots length = none := by
  rw [grow?, if_pos (Nat.lt_of_le_of_lt held far), if_neg (Nat.not_le.mpr far)]

/-- Behind the end of a list there are zeros in any case. -/
theorem getD_grown (slots : List Float) (more address : Nat) :
    (slots ++ List.replicate more 0.0).getD address 0.0 = slots.getD address 0.0 := by
  rw [List.getD_eq_getElem?_getD, List.getD_eq_getElem?_getD, List.getElem?_append]
  split
  · rfl
  · next past =>
      rw [List.getElem?_eq_none (Nat.not_lt.mp past), List.getElem?_replicate]
      split <;> rfl

theorem getD_take (slots : List Float) (count address : Nat) :
    (slots.take count).getD address 0.0 =
      if address < count then slots.getD address 0.0 else 0.0 := by
  rw [List.getD_eq_getElem?_getD, List.getElem?_take]
  split
  · rw [List.getD_eq_getElem?_getD]
  · rfl

/-- A piece of a list is replaced, and nothing else is. -/
theorem getD_replaced {slots values : List Float} {start stop : Nat} (inside : stop ≤ slots.length)
    (ordered : start ≤ stop) (count : values.length = stop - start) (place : Nat) :
    (slots.take start ++ (values ++ slots.drop stop)).getD place 0.0 =
      if start ≤ place ∧ place < stop then values.getD (place - start) 0.0
      else slots.getD place 0.0 := by
  have front : (slots.take start).length = start := by
    rw [List.length_take]
    omega
  rw [List.getD_eq_getElem?_getD, List.getElem?_append, front]
  split
  · next before =>
      rw [if_neg fun within => by omega, List.getElem?_take, if_pos before,
        List.getD_eq_getElem?_getD]
  · next behind =>
      rw [List.getElem?_append, count]
      split
      · rw [if_pos ⟨by omega, by omega⟩, List.getD_eq_getElem?_getD]
      · have index : stop + (place - start - (stop - start)) = place := by omega
        rw [if_neg fun within => by omega, List.getElem?_drop, index, List.getD_eq_getElem?_getD]

/-- A list that is made long enough has values from a place on up to another one in their places, and
nothing else in it changes. -/
theorem replace?_grown (slots : List Float) {values : List Float} {start stop : Nat}
    (ordered : start ≤ stop) (count : values.length = stop - start) :
    ∃ next, replace? (slots ++ List.replicate (stop - slots.length) 0.0) start stop values =
        some next ∧
      next.length = max slots.length stop ∧
      ∀ place, next.getD place 0.0 =
        if start ≤ place ∧ place < stop then values.getD (place - start) 0.0
        else slots.getD place 0.0 := by
  have long : (slots ++ List.replicate (stop - slots.length) 0.0).length =
      max slots.length stop := by
    rw [List.length_append, List.length_replicate]
    omega
  have inside : stop ≤ (slots ++ List.replicate (stop - slots.length) 0.0).length := by omega
  refine ⟨_, if_pos ⟨ordered, inside, count⟩, ?_, fun place => ?_⟩
  · rw [List.length_append, List.length_append, List.length_take, List.length_drop, count]
    omega
  · rw [getD_replaced inside ordered count, getD_grown]

variable {backing : Backing} {past : List Access}

namespace Remembers

theorem limit_le (remembers : backing.Remembers past) :
    backing.limit ≤ greatestUnsigned.toNat :=
  remembers.limit ▸ limitOf_le past

/-- A buffer is filled with what is remembered, and with zeros past the limit. -/
theorem read?_eq (remembers : backing.Remembers past) (address count : Nat) :
    backing.read? address count = some (min count (limitOf past - address),
      (List.range count).map fun position =>
        if position < min count (limitOf past - address) then remembered past (address + position)
        else 0.0) := by
  have limit := remembers.limit_le
  have each (position : Nat) :
      (if position < min count (backing.limit - address) then
        (sum? address position).map (backing.slots.getD · 0.0) else some 0.0) =
      some (if position < min count (limitOf past - address) then
        remembered past (address + position) else 0.0) := by
    rw [remembers.limit] at limit ⊢
    split
    · next within => rw [sum?_eq (by omega), Option.map_some, remembers.value]
    · rfl
  rw [read?]
  simp only [each]
  rw [← remembers.limit]
  exact congrArg (Option.bind · _) (List.mapM_pure)

/-- Nothing is stored where no list reaches. -/
theorem write?_eq_none (remembers : backing.Remembers past) {address place : Nat}
    {values : List Float} (far : longestList ≤ place)
    (covers : Covers (limitOf past) address values.length place) :
    backing.write? address values = none := by
  rcases covers with ⟨above, below⟩
  have limit := remembers.limit_le
  rw [remembers.limit] at limit
  rw [write?, remembers.limit, if_neg (by omega), sum?_eq (by omega)]
  exact congrArg (Option.bind · _) (grow?_eq_none remembers.held (by omega))

/-- Values are stored as far as the limit allows, if a list reaches up to each of them. -/
theorem write?_eq_some (remembers : backing.Remembers past) {address : Nat} {values : List Float}
    (near : ∀ place, Covers (limitOf past) address values.length place → place < longestList) :
    ∃ next, backing.write? address values =
        some (min values.length (limitOf past - address), next) ∧
      next.limit = limitOf past ∧ next.slots.length ≤ next.limit ∧
      next.slots.length ≤ longestList ∧
      ∀ place, next.slots.getD place 0.0 =
        placed (limitOf past) address values (remembered past) place := by
  have limit := remembers.limit_le
  have size := remembers.size
  have held := remembers.held
  rw [remembers.limit] at limit size
  rw [write?, remembers.limit]
  split
  · next full =>
      rw [full]
      refine ⟨backing, rfl, remembers.limit, remembers.size, held, fun place => ?_⟩
      rw [placed_of_full full, remembers.value]
  · next room =>
      let covered := min values.length (limitOf past - address)
      let stop := address + covered
      have below : stop ≤ limitOf past := by omega
      have reached : stop ≤ longestList := by
        have last := near (stop - 1) ⟨by omega, by omega⟩
        omega
      have count : (values.take covered).length = stop - address := by
        rw [List.length_take]
        omega
      rcases replace?_grown backing.slots (Nat.le_add_right address covered) count with
        ⟨slots, replaced, length, value⟩
      rw [sum?_eq (Nat.le_trans below limit)]
      refine ⟨⟨limitOf past, slots⟩, ?_, rfl, ?_, ?_, fun place => ?_⟩
      · change ((grow? backing.slots stop).bind fun grown =>
          (replace? grown address stop (values.take covered)).bind fun slots =>
            some (covered, Backing.mk (limitOf past) slots)) = _
        rw [grow?_eq_some reached, Option.bind_some, replaced, Option.bind_some]
      · rw [length]
        exact Nat.max_le.mpr ⟨size, below⟩
      · rw [length]
        exact Nat.max_le.mpr ⟨held, reached⟩
      · rw [value, getD_take, remembers.value, placed]
        split
        · next within => rw [if_pos (by omega)]
        · rfl

/-- An access that overreaches fails. -/
theorem access?_eq_none (remembers : backing.Remembers past) {access : Access}
    (overreaches : access.Overreaches past) : backing.access? access = none := by
  rcases overreaches with ⟨place, far, stores⟩
  cases access with
  | write address values =>
      rw [access?, remembers.write?_eq_none far (by rw [Array.length_toList]; exact stores)]
      rfl
  | store position value =>
      rcases stores with ⟨address, found, covers⟩
      rw [Memory.writeAddress?] at found
      split at found
      · next above =>
          cases found
          have single : Covers (limitOf past) (toNatural position) [value].length place := covers
          rw [access?, store?, if_pos above, remembers.write?_eq_none far single]
          rfl
      · cases found
  | read | load | limit | clear => cases stores

/-- Any other access does not fail, its result is told by what is remembered, and the list remembers
it. -/
theorem access?_eq_some (remembers : backing.Remembers past) {access : Access}
    (near : ¬ access.Overreaches past) :
    ∃ next, backing.access? access = some (access.result past, next) ∧
      next.Remembers (access :: past) := by
  have reached (place : Nat) (stores : access.StoresAt past place) : place < longestList :=
    Nat.lt_of_not_le fun far => near ⟨place, far, stores⟩
  cases access with
  | read address count =>
      refine ⟨backing, ?_, remembers.limit, remembers.size, remembers.held, remembers.value⟩
      rw [access?, remembers.read?_eq]
      rfl
  | load position =>
      refine ⟨backing, ?_, remembers.limit, remembers.size, remembers.held, remembers.value⟩
      rw [access?, load?, Access.result]
      split
      · rfl
      · rw [remembers.read?_eq, Option.map_some, Option.map_some, List.range_one,
          List.map_singleton, List.headD_cons, Nat.add_zero]
        split
        · rfl
        · next past => rw [remembered_past (by omega)]
  | write address values =>
      have covered (place : Nat)
          (covers : Covers (limitOf past) address.toNat values.toList.length place) :
          place < longestList :=
        reached place (by rw [Array.length_toList] at covers; exact covers)
      rcases remembers.write?_eq_some covered with ⟨next, written, limit, size, held, value⟩
      refine ⟨next, ?_, limit, size, held, value⟩
      rw [access?, written]
      rfl
  | store position value =>
      rw [access?, store?]
      split
      · next above =>
          have covered (place : Nat)
              (covers : Covers (limitOf past) (toNatural position) [value].length place) :
              place < longestList :=
            reached place ⟨toNatural position, if_pos above, covers⟩
          rcases remembers.write?_eq_some covered with ⟨next, written, limit, size, held, values⟩
          refine ⟨next, ?_, limit, size, held, fun place => ?_⟩
          · rw [written]
            rfl
          · rw [values, remembered, Memory.writeAddress?, if_pos above]
      · next below =>
          refine ⟨backing, rfl, remembers.limit, remembers.size, remembers.held, fun place => ?_⟩
          rw [remembered, Memory.writeAddress?, if_neg below]
          exact remembers.value place
  | limit slots =>
      refine ⟨_, rfl, rfl, List.length_take_le _ _,
        Nat.le_trans (List.length_take_le' _ _) remembers.held, fun place => ?_⟩
      rw [getD_take, remembers.value]
      rfl
  | clear => exact ⟨_, rfl, remembers.limit, Nat.zero_le _, Nat.zero_le _, fun _ => rfl⟩

/-- Some accesses fail where one of them overreaches, and else the list remembers them. -/
theorem accessAll?_cases (remembers : backing.Remembers past) (accesses : List Access) :
    (Access.SomeOverreaches accesses past ∧ accessAll? accesses backing = none) ∨
      (¬ Access.SomeOverreaches accesses past ∧
        ∃ next, accessAll? accesses backing = some next ∧
          next.Remembers (accesses.reverse ++ past)) := by
  induction accesses generalizing backing past with
  | nil => exact .inr ⟨id, backing, rfl, remembers⟩
  | cons access others ih =>
      rw [accessAll?, List.foldlM_cons]
      by_cases overreaches : access.Overreaches past
      · rw [remembers.access?_eq_none overreaches]
        exact .inl ⟨.inl overreaches, rfl⟩
      · rcases remembers.access?_eq_some overreaches with ⟨next, done, remembers⟩
        rw [done, List.reverse_cons, List.append_assoc]
        rcases ih remembers with ⟨later, failed⟩ | ⟨near, reached⟩
        · exact .inl ⟨.inr later, failed⟩
        · exact .inr ⟨not_or.mpr ⟨overreaches, near⟩, reached⟩

end Remembers

end Backing
end EffectHost

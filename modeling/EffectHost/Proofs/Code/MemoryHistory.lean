import EffectHost.Proofs.Host.Blocks
import EffectHost.Proofs.Host.MessageMemory

/-!
# What memory remembers

Memory holds at each address what was stored there last, unless it has been forgotten since: all
at once, or because the address was past a limit that was set.  What an access results in is
therefore told by the accesses before it, and so is whether it fails: an access does if it stores a
value where no list reaches.
-/

namespace EffectHost

open Number

/-! ## Accesses -/

/-- An access to memory. -/
inductive Access where
  | read (address : UInt64) (count : Nat)
  | write (address : UInt64) (values : Array Float)
  /-- Code reads the value at a position. -/
  | load (position : Float)
  /-- Code stores a value at a position. -/
  | store (position value : Float)
  | limit (slots : UInt64)
  | clear

/-- The limit after some accesses, the latest of which stands in front. -/
def limitOf : List Access → Nat
  | [] => standardMemorySlots
  | .limit slots :: _ => slots.toNat
  | _ :: earlier => limitOf earlier

/-- Of a number of values that are stored from an address on, as many as there is room for below a
limit, one gets to an address. -/
def Covers (limit start count address : Nat) : Prop :=
  start ≤ address ∧ address < start + min count (limit - start)

/-- The value at an address when values have been stored from an address on, as many as there is
room for below a limit. -/
def placed (limit start : Nat) (values : List Float) (old : Nat → Float) (address : Nat) : Float :=
  if start ≤ address ∧ address < start + min values.length (limit - start) then
    values.getD (address - start) 0.0
  else old address

/-- The value that was stored last at an address, unless it has been forgotten since.  The latest
access stands in front. -/
def remembered : List Access → Nat → Float
  | [], _ => 0.0
  | .read _ _ :: earlier, address => remembered earlier address
  | .write start values :: earlier, address =>
    placed (limitOf earlier) start.toNat values.toList (remembered earlier) address
  | .load _ :: earlier, address => remembered earlier address
  | .store position value :: earlier, address =>
    match Memory.writeAddress? position with
    | some start => placed (limitOf earlier) start [value] (remembered earlier) address
    | none => remembered earlier address
  | .limit slots :: earlier, address =>
    if address < slots.toNat then remembered earlier address else 0.0
  | .clear :: _, _ => 0.0

namespace Access

/-- What an access results in. -/
inductive Result where
  | nothing
  /-- The number of slots that are below the limit, and a buffer with their values. -/
  | filled (count : Nat) (buffer : List Float)
  /-- The number of values that were stored. -/
  | stored (count : Nat)
  | value (value : Float)

/-- What an access results in after others, the latest of which stands in front. -/
def result (past : List Access) : Access → Result
  | .read address count =>
    let covered := min count (limitOf past - address.toNat)
    .filled covered <| (List.range count).map fun position =>
      if position < covered then remembered past (address.toNat + position) else 0.0
  | .write address values => .stored (min values.size (limitOf past - address.toNat))
  | .load position =>
    .value (if position < 0.0 then 0.0 else remembered past (toNatural position))
  | .store _ _ | .limit _ | .clear => .nothing

/-- An access stores a value at an address. -/
def StoresAt (past : List Access) (address : Nat) : Access → Prop
  | .write start values => Covers (limitOf past) start.toNat values.size address
  | .store position _ =>
    ∃ start, Memory.writeAddress? position = some start ∧ Covers (limitOf past) start 1 address
  | .read _ _ | .load _ | .limit _ | .clear => False

/-- An access stores a value where no list reaches. -/
def Overreaches (past : List Access) (access : Access) : Prop :=
  ∃ address, longestList ≤ address ∧ access.StoresAt past address

/-- One of some accesses stores a value where no list reaches. -/
def SomeOverreaches : List Access → List Access → Prop
  | [], _ => False
  | access :: others, past => access.Overreaches past ∨ SomeOverreaches others (access :: past)

/-- What has been stored before may be forgotten. -/
def forgets : Access → Bool
  | .limit _ | .clear => true
  | .read _ _ | .write _ _ | .load _ | .store _ _ => false

variable {past : List Access} {access : Access} {address : Nat}

theorem lt_limitOf_of_storesAt (stores : access.StoresAt past address) :
    address < limitOf past := by
  cases access with
  | write start values =>
      rcases stores with ⟨_, before⟩
      omega
  | store position value =>
      rcases stores with ⟨start, _, _, before⟩
      omega
  | read | load | limit | clear => cases stores

/-- A list reaches up to any limit that is not beyond the longest one. -/
theorem not_overreaches_of_limitOf_le (near : limitOf past ≤ longestList) (access : Access) :
    ¬ access.Overreaches past := by
  rintro ⟨address, far, stores⟩
  have below := lt_limitOf_of_storesAt stores
  omega

theorem someOverreaches_append (first second past : List Access) :
    SomeOverreaches (first ++ second) past ↔
      SomeOverreaches first past ∨ SomeOverreaches second (first.reverse ++ past) := by
  induction first generalizing past with
  | nil => exact (iff_of_eq (false_or _)).symm
  | cons access others ih =>
      rw [List.cons_append, SomeOverreaches, SomeOverreaches, ih, or_assoc, List.reverse_cons,
        List.append_assoc]
      rfl

theorem someOverreaches_singleton : SomeOverreaches [access] past ↔ access.Overreaches past :=
  iff_of_eq (or_false _)

end Access

theorem placed_past {limit address : Nat} (past : limit ≤ address) (start : Nat)
    (values : List Float) (old : Nat → Float) :
    placed limit start values old address = old address :=
  if_neg fun within => by omega

theorem placed_of_full {limit start : Nat} {values : List Float}
    (full : min values.length (limit - start) = 0) (old : Nat → Float) :
    placed limit start values old = old := by
  funext address
  exact if_neg fun within => by omega

/-- Past the limit there is nothing. -/
theorem remembered_past {past : List Access} {address : Nat} (outside : limitOf past ≤ address) :
    remembered past address = 0.0 := by
  induction past with
  | nil => rfl
  | cons access earlier ih =>
      cases access with
      | clear => rfl
      | limit slots => exact if_neg (Nat.not_lt.mpr outside)
      | read | load => exact ih outside
      | write => exact (placed_past outside _ _ _).trans (ih outside)
      | store position value =>
          rw [remembered]
          split
          · exact (placed_past outside _ _ _).trans (ih outside)
          · exact ih outside

/-- What was cut off by a limit does not come back when the limit is raised. -/
example : remembered [.limit 8, .limit 1, .write 0 #[1.0, 2.0]] 1 = 0.0 := rfl

theorem limitOf_le (past : List Access) : limitOf past ≤ greatestUnsigned.toNat := by
  induction past with
  | nil => decide
  | cons access earlier ih =>
      cases access with
      | limit slots => exact Nat.le_of_lt_succ slots.toNat_lt
      | read | write | load | store | clear => exact ih

/-! ## Memory -/

namespace Memory

variable {memory : Memory} {past : List Access}

/-- Memory after an access. -/
def after (memory : Memory) : Access → Memory
  | .read _ _ | .load _ => memory
  | .write address values => (memory.writeRange address.toNat values).2
  | .store position value =>
    match writeAddress? position with
    | some address => memory.write address value
    | none => memory
  | .limit slots => memory.setLimit slots.toNat
  | .clear => memory.clear

/-- Fill a buffer with the values from an address on, and with zeros where there are none; also how
many there are. -/
def fill (memory : Memory) (address count : Nat) : Nat × List Float :=
  let values := memory.readRange address count
  (values.size, values.toList ++ List.replicate (count - values.size) 0.0)

/-- What an access results in. -/
def result (memory : Memory) : Access → Access.Result
  | .read address count =>
    let filled := memory.fill address.toNat count
    .filled filled.1 filled.2
  | .write address values => .stored (memory.writeRange address.toNat values).1
  | .load position =>
    match readAddress? position with
    | some address => .value (memory.read address)
    | none => .value 0.0
  | .store _ _ | .limit _ | .clear => .nothing

/-- Memory holds what is remembered of some accesses, and nothing past its limit. -/
structure Remembers (memory : Memory) (past : List Access) : Prop where
  limit : memory.limit = limitOf past
  read : ∀ address, memory.read address = remembered past address
  inside : ∀ address ∈ memory.slots, address < memory.limit

theorem remembers_nil : Remembers {} [] where
  limit := rfl
  read address := by
    rw [Memory.read]
    split
    · exact Std.HashMap.getD_empty
    · rfl
  inside _ member := absurd member Std.HashMap.not_mem_empty

/-- Values are stored as far as there is room, and no other slot changes. -/
theorem read_writeRange (memory : Memory) (address : Nat) (values : Array Float) (place : Nat) :
    (memory.writeRange address values).2.read place =
      placed memory.limit address values.toList memory.read place := by
  have filled := Filled.writeRange_covered memory address values
  have size : values.toList.length = values.size := Array.length_toList
  rw [placed, size]
  split
  · next within =>
      rw [filled.inside place within.1 within.2, Array.getD_eq_getD_getElem?,
        List.getD_eq_getElem?_getD, Array.getElem?_toList]
  · next out => exact filled.outside place out

theorem writeRange_singleton (memory : Memory) (address : Nat) (value : Float) :
    (memory.writeRange address #[value]).2 = memory.write address value := by
  by_cases below : address < memory.limit
  · rw [writeRange_of_room memory (Nat.le_sub_of_add_le (Nat.add_comm _ _ ▸ below))]
    rfl
  · rw [writeRange_past memory (Nat.not_lt.mp below), write, if_neg below]

theorem mem_write {address place : Nat} {value : Float} :
    place ∈ (memory.write address value).slots ↔
      place ∈ memory.slots ∨ (place = address ∧ place < memory.limit) := by
  rw [write]
  split
  · next below =>
      rw [Std.HashMap.mem_insert, beq_iff_eq, or_comm]
      apply or_congr Iff.rfl
      constructor
      · rintro rfl
        exact ⟨rfl, below⟩
      · exact fun here => here.1.symm
  · next past =>
      constructor
      · exact .inl
      · rintro (before | ⟨rfl, below⟩)
        · exact before
        · exact absurd below past

theorem mem_writeList {address place : Nat} {values : List Float} :
    place ∈ (memory.writeList address values).2.slots ↔ place ∈ memory.slots ∨
      (address ≤ place ∧ place < address + values.length ∧ place < memory.limit) := by
  induction values generalizing memory address with
  | nil =>
      constructor
      · exact .inl
      · rintro (before | ⟨above, below, _⟩)
        · exact before
        · exact absurd below (Nat.not_lt.mpr above)
  | cons value others ih =>
      have step : memory.writeList address (value :: others) =
          (memory.write address value).writeList (address + 1) others := rfl
      rw [step, ih, mem_write, Store.limit_write, List.length_cons, or_assoc]
      apply or_congr Iff.rfl
      omega

/-- What a range of values has been stored to. -/
theorem mem_writeRange {address place : Nat} {values : Array Float} :
    place ∈ (memory.writeRange address values).2.slots ↔
      place ∈ memory.slots ∨ Covers memory.limit address values.size place := by
  rw [writeRange_eq, mem_writeList, List.length_take, Array.length_toList, covered, Covers]
  apply or_congr Iff.rfl
  omega

/-- A list reaches up to each value that is stored. -/
theorem isHeld_iff : memory.isHeld = true ↔ ∀ address ∈ memory.slots, address < longestList := by
  rw [isHeld, Std.HashMap.all_eq_true_iff_forall_mem_getElem]
  constructor
  · exact fun held address member => of_decide_eq_true (held address member)
  · exact fun held address member => decide_eq_true (held address member)

theorem isHeld_empty : ({} : Memory).isHeld = true :=
  isHeld_iff.mpr fun _ member => absurd member Std.HashMap.not_mem_empty

namespace Remembers

theorem write (remembers : memory.Remembers past) (address : UInt64) (values : Array Float) :
    (memory.after (.write address values)).Remembers (.write address values :: past) where
  limit := (limit_writeRange memory _ values).trans remembers.limit
  read place := by
    rw [after, read_writeRange, remembers.limit, funext remembers.read]
    rfl
  inside place member := by
    rw [after, limit_writeRange]
    rcases mem_writeRange.mp member with before | ⟨_, below⟩
    · exact remembers.inside place before
    · omega

theorem store (remembers : memory.Remembers past) (position value : Float) :
    (memory.after (.store position value)).Remembers (.store position value :: past) := by
  cases found : writeAddress? position with
  | none =>
      have same : memory.after (.store position value) = memory := by rw [after, found]
      rw [same]
      refine ⟨remembers.limit, fun place => ?_, remembers.inside⟩
      rw [remembered, found]
      exact remembers.read place
  | some address =>
      have same : memory.after (.store position value) = memory.write address value := by
        rw [after, found]
      rw [same]
      refine ⟨(Store.limit_write _ _ _).trans remembers.limit, fun place => ?_,
        fun place member => ?_⟩
      · rw [remembered, found, ← writeRange_singleton, read_writeRange, remembers.limit,
          funext remembers.read]
      · rw [Store.limit_write]
        rcases mem_write.mp member with before | ⟨_, below⟩
        · exact remembers.inside place before
        · exact below

theorem setLimit (remembers : memory.Remembers past) (slots : UInt64) :
    (memory.after (.limit slots)).Remembers (.limit slots :: past) where
  limit := rfl
  read place := by
    by_cases below : place < slots.toNat
    · have kept : Option.filter (fun _ => decide (place < slots.toNat)) memory.slots[place]? =
          memory.slots[place]? := by
        cases memory.slots[place]? with
        | none => rfl
        | some value => exact if_pos (decide_eq_true below)
      have value : (memory.setLimit slots.toNat).read place = memory.slots.getD place 0.0 := by
        rw [Memory.read, Memory.setLimit]
        dsimp only
        rw [if_pos below, Std.HashMap.getD_filter', kept, Std.HashMap.getD_eq_getD_getElem?]
      rw [after, value, remembered, if_pos below, ← remembers.read, Memory.read]
      split
      · rfl
      · next past =>
          exact Std.HashMap.getD_eq_fallback fun member => past (remembers.inside place member)
    · rw [remembered, if_neg below]
      exact if_neg below
  inside place member := by
    rcases Std.HashMap.mem_filter.mp member with ⟨_, below⟩
    rw [Std.HashMap.getKey_eq] at below
    exact of_decide_eq_true below

theorem clear (remembers : memory.Remembers past) :
    (memory.after .clear).Remembers (.clear :: past) where
  limit := remembers.limit
  read place := by
    rw [Memory.read]
    split
    · exact Std.HashMap.getD_empty
    · rfl
  inside _ member := absurd member Std.HashMap.not_mem_empty

/-- A buffer is filled with what is remembered. -/
theorem fill_eq (remembers : memory.Remembers past) (address count : Nat) :
    memory.fill address count = (min count (limitOf past - address),
      (List.range count).map fun position =>
        if position < min count (limitOf past - address) then remembered past (address + position)
        else 0.0) := by
  rw [fill, toList_readRange, size_readRange, covered, remembers.limit]
  congr 1
  apply List.ext_getElem
  · rw [List.length_append, List.length_map, List.length_range', List.length_replicate,
      List.length_map, List.length_range]
    omega
  · intro position _ _
    rw [List.getElem_map, List.getElem_range, List.getElem_append]
    simp only [List.length_map, List.length_range', List.getElem_map, List.getElem_range',
      List.getElem_replicate, Nat.one_mul, remembers.read, dite_eq_ite]

/-- The result of an access is told by what is remembered. -/
theorem result_eq (remembers : memory.Remembers past) (access : Access) :
    memory.result access = access.result past := by
  cases access with
  | read address count =>
      rw [result, remembers.fill_eq]
      rfl
  | write address values =>
      rw [Access.result, ← remembers.limit]
      rfl
  | load position =>
      rw [result, readAddress?, Access.result]
      split
      · next found =>
          split at found
          · cases found
          · next above =>
              cases found
              rw [if_neg above, remembers.read]
      · next missing =>
          split at missing
          · next below => rw [if_pos below]
          · cases missing
  | store | limit | clear => rfl

/-- An access leaves memory that remembers it. -/
theorem step (remembers : memory.Remembers past) (access : Access) :
    (memory.after access).Remembers (access :: past) := by
  cases access with
  | read | load => exact ⟨remembers.limit, remembers.read, remembers.inside⟩
  | write address values => exact remembers.write address values
  | store position value => exact remembers.store position value
  | limit slots => exact remembers.setLimit slots
  | clear => exact remembers.clear

/-- Where nothing is forgotten, all that was stored and what is stored now is there. -/
theorem mem_after (remembers : memory.Remembers past) {access : Access}
    (keeps : access.forgets = false) {place : Nat} :
    place ∈ (memory.after access).slots ↔ place ∈ memory.slots ∨ access.StoresAt past place := by
  cases access with
  | read | load => exact (iff_of_eq (or_false _)).symm
  | write address values =>
      rw [after, mem_writeRange, remembers.limit]
      rfl
  | store position value =>
      rw [after, Access.StoresAt]
      cases found : writeAddress? position with
      | none => simp
      | some address =>
          simp only [Option.some.injEq, exists_eq_left']
          rw [← writeRange_singleton, mem_writeRange, remembers.limit]
          rfl
  | limit | clear => cases keeps

/-- Where nothing is forgotten, a list reaches up to all that is stored unless it did not before or
the access overreaches. -/
theorem isHeld_after (remembers : memory.Remembers past) {access : Access}
    (keeps : access.forgets = false) :
    (memory.after access).isHeld = true ↔
      memory.isHeld = true ∧ ¬ access.Overreaches past := by
  rw [isHeld_iff, isHeld_iff]
  constructor
  · intro held
    refine ⟨fun place member => held place ((remembers.mem_after keeps).mpr (.inl member)), ?_⟩
    rintro ⟨place, far, stores⟩
    have near := held place ((remembers.mem_after keeps).mpr (.inr stores))
    omega
  · rintro ⟨held, near⟩ place member
    rcases (remembers.mem_after keeps).mp member with before | stores
    · exact held place before
    · exact Nat.lt_of_not_le fun far => near ⟨place, far, stores⟩

end Remembers
end Memory

end EffectHost

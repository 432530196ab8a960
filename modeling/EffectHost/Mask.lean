import EffectHost.Number.Power

/-!
# Masks

A set of up to sixty-four slots, in which members come and go independently of each
other.  Masks tell which sliders are visible, changed or automated, and which triggers
are raised.
-/

namespace EffectHost

/-- A set of slots; slot `k` is bit `k`. -/
structure Mask where
  bits : UInt64
deriving DecidableEq, Repr

namespace Mask

/-- No slot. -/
def empty : Mask := ⟨0⟩

/-- One slot below sixty-four. -/
def single (slot : Nat) : Mask :=
  ⟨UInt64.ofNat (Number.twoTo slot)⟩

/-- The slots of either mask. -/
def union (first second : Mask) : Mask :=
  ⟨first.bits ||| second.bits⟩

/-- The slots of both masks. -/
def inter (first second : Mask) : Mask :=
  ⟨first.bits &&& second.bits⟩

/-- The slots of the first mask that are not in the second. -/
def diff (first second : Mask) : Mask :=
  ⟨first.bits &&& ~~~second.bits⟩

/-- The slots of exactly one of the masks. -/
def flip (first second : Mask) : Mask :=
  ⟨first.bits ^^^ second.bits⟩

/-- The slot is in the mask. -/
def has (mask : Mask) (slot : Nat) : Bool :=
  mask.bits.toNat.testBit slot

/-- The mask as a script value. -/
def toFloat (mask : Mask) : Float :=
  mask.bits.toFloat

@[simp] theorem union_empty (mask : Mask) : mask.union empty = mask := by
  simp [union, empty]

@[simp] theorem empty_union (mask : Mask) : empty.union mask = mask := by
  simp [union, empty]

end Mask
end EffectHost

/-!
# Powers of two

Word sizes, formats and limits are powers of two.
-/

namespace EffectHost
namespace Number

/-- Two to a power. -/
abbrev twoTo (power : Nat) : Nat :=
  1 <<< power

/-- Ten to a power. -/
abbrev tenTo (power : Nat) : Nat :=
  Nat.pow 10 power

end Number
end EffectHost

/-!
# Calling roles

Whoever calls into an effect does so from the audio role, which loads, compiles and
processes, or from the drawing role, which runs drawing passes.  A function that
belongs to one role does nothing for a caller of the other.
-/

namespace EffectHost

/-- The context from which a call is made. -/
inductive Role where
  | unassigned
  | audio
  | drawing
deriving DecidableEq, Repr

namespace Role

/-- The name of a role in messages. -/
def name : Role → String
  | .unassigned => "none"
  | .audio => "audio"
  | .drawing => "drawing"

end Role
end EffectHost

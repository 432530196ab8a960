import EffectHost.Disk.Basic
import EffectHost.Role
import EffectHost.Script.Section

/-!
# Failures

Loading, parsing and compiling can fail, and so can reading a preset bank or a state
blob.  What goes wrong while a script runs is no failure of the host: such a call
returns a value that says so.
-/

namespace EffectHost

/-- Why an operation was refused. -/
inductive Failure where
  /-- A file that cannot be used, for a reason of this library. -/
  | unusable (path reason : String)
  /-- A file that the system refuses to open or read. -/
  | unreadable (path : String) (fault : SystemFault)
  /-- A script whose sections cannot be told apart.  Lines count from one. -/
  | malformed (line : Nat) (reason : String)
  /-- A section that does not compile.  Lines count from one. -/
  | uncompilable (kind : SectionKind) (line : Nat) (reason : String)
  /-- No room is left. -/
  | exhausted (resource : String)
  /-- A file handle that is not open. -/
  | unknownHandle (index : Int)
  /-- A call from the wrong role. -/
  | wrongRole (expected actual : Role)
  | badBank (reason : String)
  | badState (reason : String)
deriving DecidableEq, Repr

namespace Failure

/-- The failure in words. -/
def message : Failure → String
  | .unusable path reason => "Cannot load " ++ path ++ ": " ++ reason
  | .unreadable path fault => "Cannot load " ++ path ++ ": " ++ fault.message
  | .malformed line reason => "Parse error at line " ++ toString line ++ ": " ++ reason
  | .uncompilable kind line reason =>
    "Compile error in @" ++ kind.tag ++ " (line " ++ toString line ++ "): " ++ reason
  | .exhausted resource => "Resource exhausted: " ++ resource
  | .unknownHandle index => "Invalid file index: " ++ toString index
  | .wrongRole expected actual =>
    "Call requires the " ++ expected.name ++ " role but was made from the " ++
      actual.name ++ " role"
  | .badBank reason => "Invalid preset bank: " ++ reason
  | .badState reason => "Invalid state blob: " ++ reason

/-- The failure and what caused it, outermost first. -/
def chain (failure : Failure) : String :=
  match failure with
  | .unreadable _ fault => failure.message ++ ": " ++ fault.message
  | _ => failure.message

/-- A fixed word for each kind of failure. -/
def code : Failure → String
  | .unusable _ _ | .unreadable _ _ => "LOAD_ERROR"
  | .malformed _ _ => "PARSE_ERROR"
  | .uncompilable _ _ _ => "COMPILE_ERROR"
  | .exhausted _ => "RESOURCE_EXHAUSTED"
  | .unknownHandle _ => "INVALID_HANDLE"
  | .wrongRole _ _ => "ROLE_VIOLATION"
  | .badBank _ => "INVALID_BANK"
  | .badState _ => "INVALID_STATE"

/-- The effect can go on as it was before the call. -/
def isRecoverable : Failure → Bool
  | .exhausted _ | .unknownHandle _ | .wrongRole _ _ | .badBank _ | .badState _ => true
  | .unusable _ _ | .unreadable _ _ | .malformed _ _ | .uncompilable _ _ _ => false

end Failure

namespace Role

/-- Insist on a role. -/
def require (actual expected : Role) : Except Failure Unit :=
  if actual = expected then .ok () else .error (.wrongRole expected actual)

end Role
end EffectHost

import EffectHost.Number.Numeral

/-!
# Slider assignments

The user sets a slider by its number, which counts from one, an equals sign, and a value.
-/

namespace EffectHost

open Text Number

/-- Why a word is no natural number. -/
inductive NaturalFault where
  | empty
  | badDigit
  | tooLarge
deriving DecidableEq, Repr

/-- The fault in words. -/
def NaturalFault.message : NaturalFault → String
  | .empty => "cannot parse integer from empty string"
  | .badDigit => "invalid digit found in string"
  | .tooLarge => "number too large to fit in target type"

/-- Continue a number below 2 ^ 64 by digits.  The first fault from the left counts. -/
def continueNatural : Nat → List Char → Except NaturalFault Nat
  | total, [] => .ok total
  | total, c :: rest =>
    if !isDigit c then .error .badDigit
    else
      let next := 10 * total + (c.toNat - '0'.toNat)
      if next < twoTo 64 then continueNatural next rest else .error .tooLarge

/-- The natural number that a word spells, after an optional plus sign. -/
def readNatural (word : List Char) : Except NaturalFault Nat :=
  match word with
  | [] => .error .empty
  | ['+'] => .error .badDigit
  | '+' :: digits => continueNatural 0 digits
  | digits => continueNatural 0 digits

/-- Why an assignment cannot be understood. -/
inductive AssignmentFault where
  | noEquals (text : String)
  | badIndex (text : String) (fault : NaturalFault)
  | badValue (text : String) (isEmpty : Bool)
  | zeroIndex
deriving DecidableEq, Repr

/-- The fault in words. -/
def AssignmentFault.message : AssignmentFault → String
  | .noEquals text => "expected INDEX=VALUE, got '" ++ text ++ "'"
  | .badIndex text fault => "bad slider index in '" ++ text ++ "': " ++ fault.message
  | .badValue text isEmpty =>
    "bad slider value in '" ++ text ++ "': " ++
      if isEmpty then "cannot parse float from empty string" else "invalid float literal"
  | .zeroIndex => "slider indices start at 1"

/-- A slider slot, counted from zero, and its value. -/
structure Assignment where
  slot : Nat
  value : Float

/-- Understand an assignment. -/
def Assignment.parse (text : String) : Except AssignmentFault Assignment := do
  match splitFirst? '=' text.toList with
  | none => .error (.noEquals text)
  | some (left, right) =>
    let index ← (readNatural (trim left)).mapError (AssignmentFault.badIndex text)
    match number? (trim right) with
    | none => .error (.badValue text (trim right).isEmpty)
    | some value => if index = 0 then .error .zeroIndex else .ok ⟨index - 1, value⟩

end EffectHost

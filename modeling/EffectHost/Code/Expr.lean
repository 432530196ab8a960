/-!
# Expressions of script code

A program is a list of expressions.  An expression is given over two kinds of leaves:
what stands for a variable, and what stands for a quoted text.  As it is read, both are
the words of the source; in a program that can run, variables are cells and texts are
their numbers.
-/

namespace EffectHost
namespace Code

/-- The operators between two operands. -/
inductive BinaryOp where
  | add
  | subtract
  | multiply
  | divide
  | equal
  | unequal
  | below
  | atMost
  | above
  | atLeast
deriving DecidableEq, Repr

namespace BinaryOp

/-- A truth value as a number. -/
def truth (holds : Bool) : Float :=
  if holds then 1.0 else 0.0

/-- The value of an operator. -/
def apply : BinaryOp → Float → Float → Float
  | .add, a, b => a + b
  | .subtract, a, b => a - b
  | .multiply, a, b => a * b
  | .divide, a, b => a / b
  | .equal, a, b => truth (a == b)
  | .unequal, a, b => truth (a != b)
  | .below, a, b => truth (a < b)
  | .atMost, a, b => truth (a ≤ b)
  | .above, a, b => truth (b < a)
  | .atLeast, a, b => truth (b ≤ a)

end BinaryOp

/-- An expression with variables `ν` and texts `τ`. -/
inductive Expr (ν τ : Type) where
  | number (value : Float)
  | text (content : τ)
  | variable (name : ν)
  /-- The memory slot at the sum of two values. -/
  | item (base index : Expr ν τ)
  | negate (operand : Expr ν τ)
  | binary (op : BinaryOp) (left right : Expr ν τ)
  | call (function : String) (arguments : List (Expr ν τ))
  /-- Store a value in a variable; the value is also the result. -/
  | assign (name : ν) (value : Expr ν τ)
  /-- Store a value in memory; the value is also the result. -/
  | assignItem (base index value : Expr ν τ)

/-- An expression in the words of its source. -/
abbrev SourceExpr := Expr String String

end Code
end EffectHost

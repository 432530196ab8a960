import EffectHost.Code.Expr
import EffectHost.Code.Token

/-!
# Reading expressions

Statements are separated by semicolons.  From the loosest to the tightest, an expression
is an assignment, which associates to the right, a chain of comparisons, of sums, of
products, a negation, or an operand with indices in brackets behind it; the chains
associate to the left.

Every part of an expression takes at least one token.  The result of reading a part
carries the proof of that, on which the recursion rests.
-/

namespace EffectHost
namespace Code

/-- Where reading stopped, and why.  The tokens from the one in question on are left. -/
structure Stop where
  cause : Cause
  unread : List Token

/-- Something that was read from the front of some tokens, and the tokens behind it. -/
structure Parsed (α : Type) (tokens : List Token) where
  value : α
  rest : List Token
  shorter : rest.length < tokens.length

/-- Something that was read from some tokens, possibly from none of them. -/
structure Continued (α : Type) (tokens : List Token) where
  value : α
  rest : List Token
  notLonger : rest.length ≤ tokens.length

/-- How tightly the operators of a chain bind. -/
inductive Level where
  | comparison
  | sum
  | product
deriving DecidableEq, Repr

namespace Level

/-- Position between the looser and the tighter kinds of expression. -/
def rank : Level → Nat
  | .comparison => 3
  | .sum => 2
  | .product => 1

theorem rank_le (level : Level) : level.rank ≤ 3 := by
  cases level <;> decide

/-- The operator of a chain that a symbol stands for. -/
def operator? : Level → Symbol → Option BinaryOp
  | .comparison, .equal => some .equal
  | .comparison, .unequal => some .unequal
  | .comparison, .below => some .below
  | .comparison, .atMost => some .atMost
  | .comparison, .above => some .above
  | .comparison, .atLeast => some .atLeast
  | .sum, .plus => some .add
  | .sum, .minus => some .subtract
  | .product, .times => some .multiply
  | .product, .over => some .divide
  | _, _ => none

/-- The operator in front of some tokens, and the tokens behind it. -/
def takeOperator? (level : Level) : List Token → Option (BinaryOp × List Token)
  | ⟨.symbol symbol, _⟩ :: rest => (level.operator? symbol).map fun op => (op, rest)
  | _ => none

theorem length_lt_of_takeOperator? {level : Level} {tokens : List Token}
    {found : BinaryOp × List Token} (taken : level.takeOperator? tokens = some found) :
    found.2.length < tokens.length := by
  unfold takeOperator? at taken
  split at taken
  next symbol line rest =>
    obtain ⟨op, _, rfl⟩ := Option.map_eq_some_iff.1 taken
    exact Nat.lt_succ_self _
  next => cases taken

end Level

/-- The tokens behind a symbol, if it comes first. -/
def takeSymbol? (symbol : Symbol) : List Token → Option (List Token)
  | ⟨.symbol found, _⟩ :: rest => if found = symbol then some rest else none
  | _ => none

theorem length_lt_of_takeSymbol? {symbol : Symbol} {tokens rest : List Token}
    (taken : takeSymbol? symbol tokens = some rest) : rest.length < tokens.length := by
  unfold takeSymbol? at taken
  split at taken
  next =>
    split at taken
    · cases taken; exact Nat.lt_succ_self _
    · cases taken
  next => cases taken

/-- Insist on a symbol. -/
def expectSymbol (symbol : Symbol) (tokens : List Token) :
    Except Stop (Parsed Unit tokens) :=
  match taken : takeSymbol? symbol tokens with
  | some rest => .ok ⟨(), rest, length_lt_of_takeSymbol? taken⟩
  | none => .error ⟨.expected symbol, tokens⟩

/-- The assignment to what was read on its left side. -/
def assignTo? (target value : SourceExpr) : Option SourceExpr :=
  match target with
  | .variable name => some (.assign name value)
  | .item base index => some (.assignItem base index value)
  | _ => none

mutual

/-- Read an expression. -/
def expression (tokens : List Token) : Except Stop (Parsed SourceExpr tokens) := do
  let left ← chain .comparison tokens
  match becomes : takeSymbol? .becomes left.rest with
  | none => .ok left
  | some behind =>
    have := left.shorter
    have := length_lt_of_takeSymbol? becomes
    let right ← expression behind
    have := right.shorter
    match assignTo? left.value right.value with
    | some assigned => .ok ⟨assigned, right.rest, by omega⟩
    | none => .error ⟨.badTarget, right.rest⟩
termination_by 10 * tokens.length + 8
decreasing_by
  · simp only [Level.rank]
    omega
  · omega

/-- Read a chain of operands. -/
def chain (level : Level) (tokens : List Token) : Except Stop (Parsed SourceExpr tokens) := do
  let first ← operand level tokens
  have := first.shorter
  let all ← chainBehind level first.value first.rest
  have := all.notLonger
  .ok ⟨all.value, all.rest, by omega⟩
termination_by 10 * tokens.length + 2 * level.rank + 1

/-- Continue a chain behind its first operands. -/
def chainBehind (level : Level) (left : SourceExpr) (tokens : List Token) :
    Except Stop (Continued SourceExpr tokens) :=
  match taken : level.takeOperator? tokens with
  | none => .ok ⟨left, tokens, Nat.le_refl _⟩
  | some (op, behind) => do
    have : behind.length < tokens.length := Level.length_lt_of_takeOperator? taken
    have := level.rank_le
    let right ← operand level behind
    have := right.shorter
    let all ← chainBehind level (.binary op left right.value) right.rest
    have := all.notLonger
    .ok ⟨all.value, all.rest, by omega⟩
termination_by 10 * tokens.length

/-- Read an operand of a chain. -/
def operand (level : Level) (tokens : List Token) : Except Stop (Parsed SourceExpr tokens) :=
  match level with
  | .comparison => chain .sum tokens
  | .sum => chain .product tokens
  | .product => negation tokens
termination_by 10 * tokens.length + 2 * level.rank
decreasing_by all_goals
  simp only [Level.rank]
  omega

/-- Read an operand with minus signs in front of it. -/
def negation (tokens : List Token) : Except Stop (Parsed SourceExpr tokens) :=
  match minus : takeSymbol? .minus tokens with
  | some behind => do
    have := length_lt_of_takeSymbol? minus
    let inner ← negation behind
    have := inner.shorter
    .ok ⟨.negate inner.value, inner.rest, by omega⟩
  | none => do
    let first ← primary tokens
    have := first.shorter
    let all ← indices first.value first.rest
    have := all.notLonger
    .ok ⟨all.value, all.rest, by omega⟩
termination_by 10 * tokens.length + 1

/-- Read the indices behind an operand. -/
def indices (base : SourceExpr) (tokens : List Token) :
    Except Stop (Continued SourceExpr tokens) :=
  match opened : takeSymbol? .openBracket tokens with
  | none => .ok ⟨base, tokens, Nat.le_refl _⟩
  | some behind => do
    have := length_lt_of_takeSymbol? opened
    let index ← expression behind
    have := index.shorter
    let closed ← expectSymbol .closeBracket index.rest
    have := closed.shorter
    let all ← indices (.item base index.value) closed.rest
    have := all.notLonger
    .ok ⟨all.value, all.rest, by omega⟩
termination_by 10 * tokens.length

/-- Read a number, a text, a variable, a call, or an expression in parentheses. -/
def primary (tokens : List Token) : Except Stop (Parsed SourceExpr tokens) :=
  match tokens with
  | [] => .error ⟨.endOfCode, []⟩
  | ⟨.number value, _⟩ :: rest => .ok ⟨.number value, rest, Nat.lt_succ_self _⟩
  | ⟨.text content, _⟩ :: rest => .ok ⟨.text content, rest, Nat.lt_succ_self _⟩
  | ⟨.name name, _⟩ :: rest =>
    match opened : takeSymbol? .openParen rest with
    | none => .ok ⟨.variable name, rest, Nat.lt_succ_self _⟩
    | some behind => do
      have := length_lt_of_takeSymbol? opened
      match closed : takeSymbol? .closeParen behind with
      | some after =>
        have := length_lt_of_takeSymbol? closed
        .ok ⟨.call name [], after, by simp only [List.length_cons]; omega⟩
      | none =>
        let all ← arguments [] behind
        have := all.shorter
        .ok ⟨.call name all.value, all.rest, by simp only [List.length_cons]; omega⟩
  | ⟨.symbol symbol, line⟩ :: rest =>
    if symbol = .openParen then do
      let inner ← expression rest
      have := inner.shorter
      let closed ← expectSymbol .closeParen inner.rest
      have := closed.shorter
      .ok ⟨inner.value, closed.rest, by simp only [List.length_cons]; omega⟩
    else .error ⟨.unexpected symbol, ⟨.symbol symbol, line⟩ :: rest⟩
termination_by 10 * tokens.length

/-- Read the arguments of a call and the closing parenthesis, behind the arguments
already read, which are in reverse. -/
def arguments (done : List SourceExpr) (tokens : List Token) :
    Except Stop (Parsed (List SourceExpr) tokens) := do
  let next ← expression tokens
  have := next.shorter
  match closed : takeSymbol? .closeParen next.rest with
  | some after =>
    have := length_lt_of_takeSymbol? closed
    .ok ⟨(next.value :: done).reverse, after, by omega⟩
  | none =>
    let comma ← expectSymbol .comma next.rest
    have := comma.shorter
    let all ← arguments (next.value :: done) comma.rest
    have := all.shorter
    .ok ⟨all.value, all.rest, by omega⟩
termination_by 10 * tokens.length + 9

end

/-- Read the statements of a program behind those already read, which are in reverse. -/
def statementsBehind (done : List SourceExpr) (tokens : List Token) :
    Except Stop (List SourceExpr) :=
  match tokens with
  | [] => .ok done.reverse
  | token :: others =>
    match _ended : takeSymbol? .semicolon (token :: others) with
    | some rest => statementsBehind done rest
    | none => do
      let next ← expression (token :: others)
      have := next.shorter
      match _left : next.rest with
      | [] => .ok (next.value :: done).reverse
      | after :: more =>
        let separator ← expectSymbol .semicolon (after :: more)
        have := separator.shorter
        statementsBehind (next.value :: done) separator.rest
termination_by tokens.length
decreasing_by
  · exact length_lt_of_takeSymbol? _ended
  · have := congrArg List.length _left
    omega

/-- Read a program. -/
def program (tokens : List Token) : Except Stop (List SourceExpr) :=
  statementsBehind [] tokens

/-- The line of the first unread token, or of the last token where none is left. -/
def Stop.line (stop : Stop) (tokens : List Token) : Nat :=
  match stop.unread.head? with
  | some token => token.line
  | none => (tokens.getLast?.map Token.line).getD 0

end Code
end EffectHost

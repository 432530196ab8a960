import EffectHost.Code.Parser
import Mathlib.Tactic.SplitIfs

/-!
# The readers as equations

Each reader of the language takes what it reads from the front of some tokens.  They are put
together from a few ways to read on: to read nothing, to stop, to read one thing behind another,
and to look whether a symbol or an operator comes first.
-/

namespace EffectHost
namespace Code

/-! ## What comes first -/

section First

variable {tokens behind : List Token}

theorem takeSymbol?_eq_some_iff {symbol : Symbol} :
    takeSymbol? symbol tokens = some behind ↔
      ∃ line, tokens = ⟨.symbol symbol, line⟩ :: behind := by
  unfold takeSymbol?
  constructor
  · intro taken
    split at taken
    · split_ifs at taken with same
      cases same
      cases taken
      exact ⟨_, rfl⟩
    · cases taken
  · rintro ⟨line, rfl⟩
    exact if_pos rfl

theorem takeOperator?_eq_some_iff {level : Level} {op : BinaryOp} :
    level.takeOperator? tokens = some (op, behind) ↔
      ∃ symbol line, level.operator? symbol = some op ∧
        tokens = ⟨.symbol symbol, line⟩ :: behind := by
  unfold Level.takeOperator?
  constructor
  · intro taken
    split at taken
    · next symbol line rest =>
        rcases Option.map_eq_some_iff.mp taken with ⟨found, stands, same⟩
        cases same
        exact ⟨symbol, line, stands, rfl⟩
    · cases taken
  · rintro ⟨symbol, line, stands, rfl⟩
    exact Option.map_eq_some_iff.mpr ⟨op, stands, rfl⟩

end First

/-! ## What was read -/

/-- What was read, and the tokens behind it. -/
def Parsed.outcome {α : Type} {tokens : List Token} (read : Except Stop (Parsed α tokens)) :
    Except Stop (α × List Token) :=
  read.map fun parsed => (parsed.value, parsed.rest)

/-- What was read, and the tokens behind it. -/
def Continued.outcome {α : Type} {tokens : List Token}
    (read : Except Stop (Continued α tokens)) : Except Stop (α × List Token) :=
  read.map fun continued => (continued.value, continued.rest)

section Outcome

variable {α : Type} {value : α} {tokens rest : List Token} {read : Except Stop (Parsed α tokens)}

theorem Parsed.exists_of_outcome (outcome : Parsed.outcome read = .ok (value, rest)) :
    ∃ shorter, read = .ok ⟨value, rest, shorter⟩ := by
  cases read with
  | error stop => cases outcome
  | ok parsed =>
      cases outcome
      exact ⟨parsed.shorter, rfl⟩

theorem Parsed.length_lt_of_outcome (outcome : Parsed.outcome read = .ok (value, rest)) :
    rest.length < tokens.length :=
  (Parsed.exists_of_outcome outcome).1

end Outcome

/-! ## Ways to read on -/

/-- Something that reads a value from the front of some tokens. -/
abbrev Reader (α : Type) := List Token → Except Stop (α × List Token)

/-- A value was read, or reading stopped, in front of these tokens. -/
def Stop.at {α : Type} (result : Except Cause α) (rest : List Token) :
    Except Stop (α × List Token) :=
  match result with
  | .ok value => .ok (value, rest)
  | .error cause => .error ⟨cause, rest⟩

namespace Reader

variable {α β : Type}

/-- Read nothing. -/
def give (value : α) : Reader α :=
  Stop.at (.ok value)

/-- Stop in front of the tokens. -/
def fail (cause : Cause) : Reader α :=
  Stop.at (.error cause)

/-- Read one thing behind another. -/
def andThen (first : Reader α) (next : α → Reader β) : Reader β :=
  fun tokens => (first tokens).bind fun (value, rest) => next value rest

/-- Read on behind a symbol, if it comes first. -/
def onSymbol (symbol : Symbol) (taken missing : Reader α) : Reader α :=
  fun tokens => match takeSymbol? symbol tokens with
    | some behind => taken behind
    | none => missing tokens

/-- Read on behind an operator of a chain, if one comes first. -/
def onOperator (level : Level) (taken : BinaryOp → Reader α) (missing : Reader α) : Reader α :=
  fun tokens => match level.takeOperator? tokens with
    | some (op, behind) => taken op behind
    | none => missing tokens

section Steps

variable {tokens behind : List Token} {symbol : Symbol} {level : Level} {op : BinaryOp}

theorem andThen_of_ok {first : Reader α} {next : α → Reader β} {value : α}
    (read : first tokens = .ok (value, behind)) :
    first.andThen next tokens = next value behind := by
  rw [andThen, read]
  rfl

theorem onSymbol_of_some {taken missing : Reader α}
    (found : takeSymbol? symbol tokens = some behind) :
    onSymbol symbol taken missing tokens = taken behind := by
  rw [onSymbol, found]

theorem onSymbol_of_none {taken missing : Reader α} (none : takeSymbol? symbol tokens = none) :
    onSymbol symbol taken missing tokens = missing tokens := by
  rw [onSymbol, none]

theorem onOperator_of_some {taken : BinaryOp → Reader α} {missing : Reader α}
    (found : level.takeOperator? tokens = some (op, behind)) :
    onOperator level taken missing tokens = taken op behind := by
  rw [onOperator, found]

theorem onOperator_of_none {taken : BinaryOp → Reader α} {missing : Reader α}
    (none : level.takeOperator? tokens = none) :
    onOperator level taken missing tokens = missing tokens := by
  rw [onOperator, none]

end Steps

/-! ## The readers of the language -/

/-- Insist on a symbol. -/
def symbol (symbol : Symbol) : Reader Unit :=
  fun tokens => Parsed.outcome (expectSymbol symbol tokens)

def expression : Reader SourceExpr :=
  fun tokens => Parsed.outcome (Code.expression tokens)

def chain (level : Level) : Reader SourceExpr :=
  fun tokens => Parsed.outcome (Code.chain level tokens)

def chainBehind (level : Level) (left : SourceExpr) : Reader SourceExpr :=
  fun tokens => Continued.outcome (Code.chainBehind level left tokens)

def operand (level : Level) : Reader SourceExpr :=
  fun tokens => Parsed.outcome (Code.operand level tokens)

def negation : Reader SourceExpr :=
  fun tokens => Parsed.outcome (Code.negation tokens)

def indices (base : SourceExpr) : Reader SourceExpr :=
  fun tokens => Continued.outcome (Code.indices base tokens)

def primary : Reader SourceExpr :=
  fun tokens => Parsed.outcome (Code.primary tokens)

def arguments (done : List SourceExpr) : Reader (List SourceExpr) :=
  fun tokens => Parsed.outcome (Code.arguments done tokens)

/-- Assign to what was read on the left side. -/
def assignment (target value : SourceExpr) : Reader SourceExpr :=
  match assignTo? target value with
  | some assigned => give assigned
  | none => fail .badTarget

theorem symbol_eq (expected : Symbol) :
    symbol expected = onSymbol expected (give ()) (fail (.expected expected)) := by
  funext tokens
  rw [symbol, expectSymbol]
  split
  · next behind taken =>
      rw [onSymbol_of_some taken]
      rfl
  · next taken =>
      rw [onSymbol_of_none taken]
      rfl

theorem expression_eq :
    expression = (chain .comparison).andThen fun left =>
      onSymbol .becomes (expression.andThen (assignment left)) (give left) := by
  funext tokens
  rw [expression, Code.expression, andThen, chain]
  dsimp only [bind, Except.bind]
  cases Code.chain .comparison tokens with
  | error stop => rfl
  | ok left =>
      change _ = onSymbol .becomes (expression.andThen (assignment left.value)) (give left.value)
        left.rest
      dsimp only
      split
      · next taken =>
          rw [onSymbol_of_none taken]
          rfl
      · next behind taken =>
          rw [onSymbol_of_some taken, andThen, expression]
          cases Code.expression behind with
          | error stop => rfl
          | ok right =>
              change _ = assignment left.value right.value right.rest
              dsimp only [assignment]
              split <;> next found => rw [found]; rfl

theorem chain_eq (level : Level) : chain level = (operand level).andThen (chainBehind level) := by
  funext tokens
  rw [chain, Code.chain, andThen, operand]
  dsimp only [bind, Except.bind]
  cases Code.operand level tokens with
  | error stop => rfl
  | ok first =>
      change _ = Continued.outcome (Code.chainBehind level first.value first.rest)
      dsimp only
      cases Code.chainBehind level first.value first.rest <;> rfl

theorem chainBehind_eq (level : Level) (left : SourceExpr) :
    chainBehind level left = onOperator level
      (fun op => (operand level).andThen fun right => chainBehind level (.binary op left right))
      (give left) := by
  funext tokens
  rw [chainBehind, Code.chainBehind]
  split
  · next taken =>
      rw [onOperator_of_none taken]
      rfl
  · next op behind taken =>
      rw [onOperator_of_some taken, andThen, operand]
      dsimp only [bind, Except.bind]
      cases Code.operand level behind with
      | error stop => rfl
      | ok right =>
          change _ = Continued.outcome (Code.chainBehind level (.binary op left right.value) _)
          dsimp only
          cases Code.chainBehind level (.binary op left right.value) right.rest <;> rfl

theorem operand_eq (level : Level) : operand level = match level with
    | .comparison => chain .sum
    | .sum => chain .product
    | .product => negation := by
  funext tokens
  cases level <;> rw [operand, Code.operand] <;> rfl

theorem negation_eq :
    negation = onSymbol .minus (negation.andThen fun inner => give (.negate inner))
      (primary.andThen indices) := by
  funext tokens
  rw [negation, Code.negation]
  split
  · next behind taken =>
      rw [onSymbol_of_some taken, andThen, negation]
      dsimp only [bind, Except.bind]
      cases Code.negation behind <;> rfl
  · next taken =>
      rw [onSymbol_of_none taken, andThen, primary]
      dsimp only [bind, Except.bind]
      cases Code.primary tokens with
      | error stop => rfl
      | ok first =>
          change _ = Continued.outcome (Code.indices first.value first.rest)
          dsimp only
          cases Code.indices first.value first.rest <;> rfl

theorem indices_eq (base : SourceExpr) :
    indices base = onSymbol .openBracket
      (expression.andThen fun index => (symbol .closeBracket).andThen fun _ =>
        indices (.item base index))
      (give base) := by
  funext tokens
  rw [indices, Code.indices]
  split
  · next taken =>
      rw [onSymbol_of_none taken]
      rfl
  · next behind taken =>
      rw [onSymbol_of_some taken, andThen, expression]
      dsimp only [bind, Except.bind]
      cases Code.expression behind with
      | error stop => rfl
      | ok index =>
          change _ = (symbol .closeBracket).andThen (fun _ => indices (.item base index.value)) _
          rw [andThen, symbol]
          dsimp only
          cases expectSymbol .closeBracket index.rest with
          | error stop => rfl
          | ok closed =>
              change _ = Continued.outcome (Code.indices (.item base index.value) closed.rest)
              dsimp only
              cases Code.indices (.item base index.value) closed.rest <;> rfl

theorem arguments_eq (done : List SourceExpr) :
    arguments done = expression.andThen fun next =>
      onSymbol .closeParen (give (next :: done).reverse)
        ((symbol .comma).andThen fun _ => arguments (next :: done)) := by
  funext tokens
  rw [arguments, Code.arguments, andThen, expression]
  dsimp only [bind, Except.bind]
  cases Code.expression tokens with
  | error stop => rfl
  | ok next =>
      change _ = onSymbol .closeParen (give (next.value :: done).reverse)
        ((symbol .comma).andThen fun _ => arguments (next.value :: done)) next.rest
      dsimp only
      split
      · next behind taken =>
          rw [onSymbol_of_some taken]
          rfl
      · next taken =>
          rw [onSymbol_of_none taken, andThen, symbol]
          cases expectSymbol .comma next.rest with
          | error stop => rfl
          | ok comma =>
              change _ = Parsed.outcome (Code.arguments (next.value :: done) comma.rest)
              dsimp only
              cases Code.arguments (next.value :: done) comma.rest <;> rfl

theorem primary_name_eq (name : String) (line : Nat) (rest : List Token) :
    primary (⟨.name name, line⟩ :: rest) =
      onSymbol .openParen
        (onSymbol .closeParen (give (.call name []))
          ((arguments []).andThen fun all => give (.call name all)))
        (give (.variable name)) rest := by
  rw [primary, Code.primary]
  split
  · next taken =>
      rw [onSymbol_of_none taken]
      rfl
  · next behind taken =>
      rw [onSymbol_of_some taken]
      dsimp only
      split
      · next after closed =>
          rw [onSymbol_of_some closed]
          rfl
      · next closed =>
          rw [onSymbol_of_none closed, andThen, arguments]
          dsimp only [bind, Except.bind]
          cases Code.arguments [] behind <;> rfl

theorem primary_openParen_eq (line : Nat) (rest : List Token) :
    primary (⟨.symbol .openParen, line⟩ :: rest) =
      (expression.andThen fun inner => (symbol .closeParen).andThen fun _ => give inner) rest := by
  rw [primary, Code.primary, if_pos rfl, andThen, expression]
  dsimp only [bind, Except.bind]
  cases Code.expression rest with
  | error stop => rfl
  | ok inner =>
      change _ = (symbol .closeParen).andThen (fun _ => give inner.value) inner.rest
      rw [andThen, symbol]
      dsimp only
      cases expectSymbol .closeParen inner.rest <;> rfl

theorem primary_symbol_eq {other : Symbol} (unlike : other ≠ .openParen) (line : Nat)
    (rest : List Token) :
    primary (⟨.symbol other, line⟩ :: rest) =
      fail (.unexpected other) (⟨.symbol other, line⟩ :: rest) := by
  rw [primary, Code.primary, if_neg unlike]
  rfl

/-! ## Programs -/

/-- End a statement at a semicolon, or with the program. -/
def ended (statement : SourceExpr) : Reader SourceExpr :=
  fun tokens => if tokens.isEmpty then give statement tokens
    else ((symbol .semicolon).andThen fun _ => give statement) tokens

/-- A statement with what ends it. -/
def statement : Reader SourceExpr :=
  expression.andThen ended

section Statements

variable {tokens rest : List Token} {next : SourceExpr}

theorem statement_of_ok (read : expression tokens = .ok (next, rest)) :
    statement tokens = ended next rest :=
  andThen_of_ok read

theorem ended_cons (token : Token) :
    ended next (token :: tokens) =
      ((symbol .semicolon).andThen fun _ => give next) (token :: tokens) :=
  rfl

theorem ended_of_semicolon (ends : takeSymbol? .semicolon tokens = some rest) :
    ended next tokens = .ok (next, rest) := by
  have separated : symbol .semicolon tokens = .ok ((), rest) := by
    rw [symbol_eq, onSymbol_of_some ends]
    rfl
  rcases takeSymbol?_eq_some_iff.mp ends with ⟨line, rfl⟩
  rw [ended_cons, andThen_of_ok separated]
  rfl

end Statements

end Reader

theorem statementsBehind_of_semicolon {tokens behind : List Token} {done : List SourceExpr}
    (empty : takeSymbol? .semicolon tokens = some behind) :
    statementsBehind done tokens = statementsBehind done behind := by
  rcases takeSymbol?_eq_some_iff.mp empty with ⟨line, rfl⟩
  rw [statementsBehind]
  split
  · next taken =>
      rw [empty] at taken
      cases taken
      rfl
  · next taken =>
      rw [empty] at taken
      cases taken

theorem statementsBehind_of_statement {token : Token} {tokens : List Token}
    {done : List SourceExpr} (begins : takeSymbol? .semicolon (token :: tokens) = none) :
    statementsBehind done (token :: tokens) = (Reader.statement (token :: tokens)).bind
      fun read => statementsBehind (read.1 :: done) read.2 := by
  rw [statementsBehind]
  split
  · next taken =>
      rw [begins] at taken
      cases taken
  · rw [Reader.statement, Reader.andThen, Reader.expression]
    dsimp only [bind, Except.bind]
    cases Code.expression (token :: tokens) with
    | error stop => rfl
    | ok next =>
        change _ = (Reader.ended next.value next.rest).bind _
        dsimp only
        split
        · next none =>
            rw [none]
            show _ = statementsBehind (next.value :: done) []
            rw [statementsBehind]
        · next after more left =>
            rw [left, Reader.ended_cons, Reader.andThen, Reader.symbol]
            cases expectSymbol .semicolon (after :: more) <;> rfl

end Code
end EffectHost

import EffectHost.Proofs.Code.Readers

/-!
# The grammar of the language

How an expression may be written is a relation between expressions and rows of lexemes.  It
has one case for each form of expression, one for parentheses, which may stand around any
expression, and one for each step from a tighter to a looser kind of expression.

A reader stops in front of what cannot continue its kind of expression.  So it is shown for
each kind what its reader makes of the written expression and something behind it at which it
stops: operands are handed on to the reader of indices, operands of a chain to the rest of the
chain, and everything else is read to its end.
-/

namespace EffectHost
namespace Code

/-! ## Written expressions -/

/-- How tightly the parts of an expression hold together, unless it is in parentheses. -/
inductive Tightness where
  | assignment
  | chain (level : Level)
  | negation
  | operand
deriving DecidableEq, Repr

/-- The operands of a chain. -/
def Level.tighter : Level → Tightness
  | .comparison => .chain .sum
  | .sum => .chain .product
  | .product => .negation

mutual

/-- The ways to write an expression. -/
inductive Writes : Tightness → SourceExpr → List Lexeme → Prop where
  | number (value : Float) : Writes .operand (.number value) [.number value]
  | variable (name : String) : Writes .operand (.variable name) [.name name]
  | callNothing (function : String) :
      Writes .operand (.call function [])
        [.name function, .symbol .openParen, .symbol .closeParen]
  | call (function : String) {arguments : List SourceExpr} {inside : List Lexeme}
      (listed : WritesArguments arguments inside) :
      Writes .operand (.call function arguments)
        (.name function :: .symbol .openParen :: inside)
  | item {base index : SourceExpr} {front inside : List Lexeme}
      (written : Writes .operand base front) (indexed : Writes .assignment index inside) :
      Writes .operand (.item base index)
        (front ++ .symbol .openBracket :: (inside ++ [.symbol .closeBracket]))
  | parens {whole : SourceExpr} {inside : List Lexeme}
      (written : Writes .assignment whole inside) :
      Writes .operand whole (.symbol .openParen :: (inside ++ [.symbol .closeParen]))
  | negate {inner : SourceExpr} {behind : List Lexeme} (written : Writes .negation inner behind) :
      Writes .negation (.negate inner) (.symbol .minus :: behind)
  | binary {level : Level} {symbol : Symbol} {op : BinaryOp} {left right : SourceExpr}
      {front back : List Lexeme} (stands : level.operator? symbol = some op)
      (before : Writes (.chain level) left front) (behind : Writes level.tighter right back) :
      Writes (.chain level) (.binary op left right) (front ++ .symbol symbol :: back)
  | assign {target value whole : SourceExpr} {front back : List Lexeme}
      (assigns : assignTo? target value = some whole)
      (before : Writes (.chain .comparison) target front)
      (behind : Writes .assignment value back) :
      Writes .assignment whole (front ++ .symbol .becomes :: back)
  /-- An operand without a sign. -/
  | bare {whole : SourceExpr} {lexemes : List Lexeme} (written : Writes .operand whole lexemes) :
      Writes .negation whole lexemes
  /-- A chain of one operand. -/
  | single {level : Level} {whole : SourceExpr} {lexemes : List Lexeme}
      (written : Writes level.tighter whole lexemes) : Writes (.chain level) whole lexemes
  /-- An expression that assigns nothing. -/
  | value {whole : SourceExpr} {lexemes : List Lexeme}
      (written : Writes (.chain .comparison) whole lexemes) : Writes .assignment whole lexemes

/-- The ways to write arguments between commas, and the parenthesis behind them. -/
inductive WritesArguments : List SourceExpr → List Lexeme → Prop where
  | last {argument : SourceExpr} {front : List Lexeme}
      (written : Writes .assignment argument front) :
      WritesArguments [argument] (front ++ [.symbol .closeParen])
  | more {argument : SourceExpr} {others : List SourceExpr} {front back : List Lexeme}
      (written : Writes .assignment argument front) (behind : WritesArguments others back) :
      WritesArguments (argument :: others) (front ++ .symbol .comma :: back)

end

/-- The ways to write a program: its statements in order, with a semicolon between any two and
more of them wherever a statement may begin. -/
inductive WritesProgram : List SourceExpr → List Lexeme → Prop where
  | nothing : WritesProgram [] []
  | skip {statements : List SourceExpr} {behind : List Lexeme}
      (written : WritesProgram statements behind) :
      WritesProgram statements (.symbol .semicolon :: behind)
  | last {statement : SourceExpr} {front : List Lexeme}
      (written : Writes .assignment statement front) : WritesProgram [statement] front
  | more {statement : SourceExpr} {others : List SourceExpr} {front behind : List Lexeme}
      (written : Writes .assignment statement front) (more : WritesProgram others behind) :
      WritesProgram (statement :: others) (front ++ .symbol .semicolon :: behind)

/-! ## The steps of the readers -/

section Steps

open Reader (symbol_eq expression_eq chain_eq chainBehind_eq negation_eq indices_eq arguments_eq
  primary_name_eq primary_openParen_eq andThen_of_ok onSymbol_of_some onSymbol_of_none
  onOperator_of_some onOperator_of_none)

variable {tokens behind rest : List Token} {level : Level} {op : BinaryOp}
  {left right base index whole : SourceExpr}

theorem chain_outcome (first : Parsed.outcome (operand level tokens) = .ok (left, rest)) :
    Parsed.outcome (chain level tokens) = Continued.outcome (chainBehind level left rest) :=
  (congrFun (chain_eq level) tokens).trans (andThen_of_ok first)

theorem chainBehind_of_none (ends : level.takeOperator? tokens = none) :
    Continued.outcome (chainBehind level left tokens) = .ok (left, tokens) :=
  (congrFun (chainBehind_eq level left) tokens).trans (onOperator_of_none ends)

theorem chainBehind_of_some (continues : level.takeOperator? tokens = some (op, behind))
    (next : Parsed.outcome (operand level behind) = .ok (right, rest)) :
    Continued.outcome (chainBehind level left tokens) =
      Continued.outcome (chainBehind level (.binary op left right) rest) := by
  apply (congrFun (chainBehind_eq level left) tokens).trans
  rw [onOperator_of_some continues]
  exact andThen_of_ok next

theorem negation_of_minus (minus : takeSymbol? .minus tokens = some behind)
    (inner : Parsed.outcome (negation behind) = .ok (whole, rest)) :
    Parsed.outcome (negation tokens) = .ok (.negate whole, rest) := by
  apply (congrFun negation_eq tokens).trans
  rw [onSymbol_of_some minus]
  exact andThen_of_ok inner

theorem negation_of_primary (bare : takeSymbol? .minus tokens = none)
    (first : Parsed.outcome (primary tokens) = .ok (base, rest)) :
    Parsed.outcome (negation tokens) = Continued.outcome (indices base rest) := by
  apply (congrFun negation_eq tokens).trans
  rw [onSymbol_of_none bare]
  exact andThen_of_ok first

theorem indices_of_none (ends : takeSymbol? .openBracket tokens = none) :
    Continued.outcome (indices base tokens) = .ok (base, tokens) :=
  (congrFun (indices_eq base) tokens).trans (onSymbol_of_none ends)

theorem expectSymbol_of_some {symbol : Symbol} (taken : takeSymbol? symbol tokens = some rest) :
    Parsed.outcome (expectSymbol symbol tokens) = .ok ((), rest) :=
  (congrFun (symbol_eq symbol) tokens).trans (onSymbol_of_some taken)

theorem indices_of_some {after : List Token}
    (opens : takeSymbol? .openBracket tokens = some behind)
    (inner : Parsed.outcome (expression behind) = .ok (index, rest))
    (closes : takeSymbol? .closeBracket rest = some after) :
    Continued.outcome (indices base tokens) =
      Continued.outcome (indices (.item base index) after) := by
  apply (congrFun (indices_eq base) tokens).trans
  rw [onSymbol_of_some opens]
  exact (andThen_of_ok inner).trans (andThen_of_ok (expectSymbol_of_some closes))

theorem expression_of_chain (first : Parsed.outcome (chain .comparison tokens) = .ok (whole, rest))
    (ends : takeSymbol? .becomes rest = none) :
    Parsed.outcome (expression tokens) = .ok (whole, rest) := by
  apply (congrFun expression_eq tokens).trans
  exact (andThen_of_ok first).trans (onSymbol_of_none ends)

theorem expression_of_becomes {target value : SourceExpr} {after : List Token}
    (first : Parsed.outcome (chain .comparison tokens) = .ok (target, rest))
    (becomes : takeSymbol? .becomes rest = some behind)
    (second : Parsed.outcome (expression behind) = .ok (value, after))
    (assigns : assignTo? target value = some whole) :
    Parsed.outcome (expression tokens) = .ok (whole, after) := by
  have assigned : Reader.assignment target value after = .ok (whole, after) := by
    rw [Reader.assignment, assigns]
    rfl
  apply (congrFun expression_eq tokens).trans
  rw [andThen_of_ok first, onSymbol_of_some becomes]
  exact (andThen_of_ok second).trans assigned

theorem primary_number (value : Float) (line : Nat) :
    Parsed.outcome (primary (⟨.number value, line⟩ :: rest)) = .ok (.number value, rest) := by
  rw [primary]
  rfl

theorem primary_variable (name : String) (line : Nat)
    (ends : takeSymbol? .openParen rest = none) :
    Parsed.outcome (primary (⟨.name name, line⟩ :: rest)) = .ok (.variable name, rest) :=
  (primary_name_eq name line rest).trans (onSymbol_of_none ends)

theorem primary_callNothing (function : String) (line : Nat)
    (opens : takeSymbol? .openParen tokens = some behind)
    (closes : takeSymbol? .closeParen behind = some rest) :
    Parsed.outcome (primary (⟨.name function, line⟩ :: tokens)) =
      .ok (.call function [], rest) := by
  apply (primary_name_eq function line tokens).trans
  exact (onSymbol_of_some opens).trans (onSymbol_of_some closes)

theorem primary_call (function : String) (line : Nat) {arguments : List SourceExpr}
    (opens : takeSymbol? .openParen tokens = some behind)
    (open' : takeSymbol? .closeParen behind = none)
    (all : Parsed.outcome (Code.arguments [] behind) = .ok (arguments, rest)) :
    Parsed.outcome (primary (⟨.name function, line⟩ :: tokens)) =
      .ok (.call function arguments, rest) := by
  apply (primary_name_eq function line tokens).trans
  rw [onSymbol_of_some opens, onSymbol_of_none open']
  exact andThen_of_ok all

theorem primary_parens (line : Nat)
    (inner : Parsed.outcome (expression tokens) = .ok (whole, behind))
    (closes : takeSymbol? .closeParen behind = some rest) :
    Parsed.outcome (primary (⟨.symbol .openParen, line⟩ :: tokens)) = .ok (whole, rest) := by
  apply (primary_openParen_eq line tokens).trans
  exact (andThen_of_ok inner).trans (andThen_of_ok (expectSymbol_of_some closes))

theorem arguments_of_close {done : List SourceExpr}
    (first : Parsed.outcome (expression tokens) = .ok (whole, behind))
    (closes : takeSymbol? .closeParen behind = some rest) :
    Parsed.outcome (arguments done tokens) = .ok (done.reverse ++ [whole], rest) := by
  apply (congrFun (arguments_eq done) tokens).trans
  rw [andThen_of_ok first, onSymbol_of_some closes, List.reverse_cons]
  rfl

theorem arguments_of_comma {done : List SourceExpr}
    (first : Parsed.outcome (expression tokens) = .ok (whole, behind))
    (open' : takeSymbol? .closeParen behind = none)
    (continues : takeSymbol? .comma behind = some rest) :
    Parsed.outcome (arguments done tokens) = Parsed.outcome (arguments (whole :: done) rest) := by
  apply (congrFun (arguments_eq done) tokens).trans
  rw [andThen_of_ok first, onSymbol_of_none open']
  exact andThen_of_ok (expectSymbol_of_some continues)

end Steps

/-! ## What the readers make of written expressions -/

/-- The symbols that continue an expression of this kind. -/
def Tightness.continuations : Tightness → List Symbol
  | .operand => [.openParen]
  | .negation | .chain .product => [.openParen, .openBracket]
  | .chain .sum => [.openParen, .openBracket, .times, .over]
  | .chain .comparison => [.openParen, .openBracket, .times, .over, .plus, .minus]
  | .assignment => [.openParen, .openBracket, .times, .over, .plus, .minus,
      .equal, .unequal, .below, .atMost, .above, .atLeast, .becomes]

/-- The tokens begin with no symbol that continues an expression of this kind. -/
def Stops (tightness : Tightness) (more : List Token) : Prop :=
  ∀ symbol ∈ tightness.continuations, takeSymbol? symbol more = none

/-- The tokens are read as the expression, whatever is behind them at which the reader stops. -/
def Reads : Tightness → SourceExpr → List Token → Prop
  | .operand, whole, tokens => ∀ more, Stops .operand more →
      Parsed.outcome (negation (tokens ++ more)) = Continued.outcome (indices whole more)
  | .negation, whole, tokens => ∀ more, Stops .negation more →
      Parsed.outcome (negation (tokens ++ more)) = .ok (whole, more)
  | .chain level, whole, tokens => ∀ more, Stops (.chain level) more →
      Parsed.outcome (chain level (tokens ++ more)) =
        Continued.outcome (chainBehind level whole more)
  | .assignment, whole, tokens => ∀ more, Stops .assignment more →
      Parsed.outcome (expression (tokens ++ more)) = .ok (whole, more)

/-- The tokens are read as arguments behind those already read. -/
def ReadsArguments (arguments : List SourceExpr) (tokens : List Token) : Prop :=
  ∀ done more, Parsed.outcome (Code.arguments done (tokens ++ more)) =
    .ok (done.reverse ++ arguments, more)

theorem stops_nil (tightness : Tightness) : Stops tightness [] :=
  fun _ _ => rfl

theorem stops_cons {tightness : Tightness} {symbol : Symbol} {line : Nat} {more : List Token}
    (ends : symbol ∉ tightness.continuations) :
    Stops tightness (⟨.symbol symbol, line⟩ :: more) := by
  intro other member
  have different : symbol ≠ other := fun same => ends (same ▸ member)
  exact if_neg different

theorem Stops.of_subset {tight loose : Tightness} {more : List Token}
    (stops : Stops loose more) (fewer : tight.continuations ⊆ loose.continuations) :
    Stops tight more :=
  fun symbol member => stops symbol (fewer member)

/-- Where no operator of a level continues, its chains end. -/
theorem Stops.takeOperator? {tightness : Tightness} {level : Level} {more : List Token}
    (stops : Stops tightness more)
    (operators : ∀ symbol op, level.operator? symbol = some op →
      symbol ∈ tightness.continuations) : level.takeOperator? more = none := by
  unfold Level.takeOperator?
  split
  · next symbol line behind =>
      cases stands : level.operator? symbol with
      | none => rfl
      | some op =>
          have taken := stops symbol (operators symbol op stands)
          rw [takeSymbol?, if_pos rfl] at taken
          cases taken
  · rfl

/-- An operator ends the operands in front of it. -/
theorem stops_of_operator {level : Level} {symbol : Symbol} {op : BinaryOp} {line : Nat}
    {more : List Token} (stands : level.operator? symbol = some op) :
    Stops (.chain level) (⟨.symbol symbol, line⟩ :: more) := by
  apply stops_cons
  cases level <;> cases symbol <;> cases stands <;> decide

theorem product_mem_continuations {symbol : Symbol} {op : BinaryOp}
    (stands : Level.product.operator? symbol = some op) :
    symbol ∈ (Tightness.chain .sum).continuations := by
  cases symbol <;> cases stands <;> decide

theorem sum_mem_continuations {symbol : Symbol} {op : BinaryOp}
    (stands : Level.sum.operator? symbol = some op) :
    symbol ∈ (Tightness.chain .comparison).continuations := by
  cases symbol <;> cases stands <;> decide

theorem comparison_mem_continuations {symbol : Symbol} {op : BinaryOp}
    (stands : Level.comparison.operator? symbol = some op) :
    symbol ∈ Tightness.assignment.continuations := by
  cases symbol <;> cases stands <;> decide

theorem exists_first {tokens : List Token} {back : List Lexeme} {lexeme : Lexeme}
    (lexed : tokens.map Token.lexeme = lexeme :: back) :
    ∃ line behind, tokens = ⟨lexeme, line⟩ :: behind ∧ behind.map Token.lexeme = back := by
  rcases List.map_eq_cons_iff.mp lexed with ⟨⟨_, line⟩, behind, rfl, rfl, lexedBehind⟩
  exact ⟨line, behind, rfl, lexedBehind⟩

theorem exists_token {tokens : List Token} {front back : List Lexeme} {lexeme : Lexeme}
    (lexed : tokens.map Token.lexeme = front ++ lexeme :: back) :
    ∃ before line behind, tokens = before ++ ⟨lexeme, line⟩ :: behind ∧
      before.map Token.lexeme = front ∧ behind.map Token.lexeme = back := by
  rcases List.map_eq_append_iff.mp lexed with ⟨before, others, rfl, lexedBefore, lexedOthers⟩
  rcases exists_first lexedOthers with ⟨line, behind, rfl, lexedBehind⟩
  exact ⟨before, line, behind, rfl, lexedBefore, lexedBehind⟩

section Reading

variable {level : Level} {whole : SourceExpr} {tokens front back more : List Token} {line : Nat}

/-- Operands of a chain are read to their end. -/
theorem Reads.operand (reads : Reads level.tighter whole tokens)
    (stops : Stops (.chain level) more) :
    Parsed.outcome (operand level (tokens ++ more)) = .ok (whole, more) := by
  cases level with
  | product =>
      rw [Code.operand]
      exact reads more stops
  | sum =>
      rw [Code.operand]
      have ends := stops.takeOperator? fun _ _ => product_mem_continuations
      exact (reads more (stops.of_subset (by decide))).trans (chainBehind_of_none ends)
  | comparison =>
      rw [Code.operand]
      have ends := stops.takeOperator? fun _ _ => sum_mem_continuations
      exact (reads more (stops.of_subset (by decide))).trans (chainBehind_of_none ends)

theorem Reads.single (reads : Reads level.tighter whole tokens) :
    Reads (.chain level) whole tokens :=
  fun _ stops => chain_outcome (reads.operand stops)

theorem Reads.binary {symbol : Symbol} {op : BinaryOp} {left right : SourceExpr}
    (stands : level.operator? symbol = some op) (before : Reads (.chain level) left front)
    (behind : Reads level.tighter right back) :
    Reads (.chain level) (.binary op left right) (front ++ ⟨.symbol symbol, line⟩ :: back) := by
  intro more stops
  rw [List.append_assoc]
  have first := before (⟨.symbol symbol, line⟩ :: (back ++ more)) (stops_of_operator stands)
  refine first.trans (chainBehind_of_some ?_ (behind.operand stops))
  rw [Level.takeOperator?, stands]
  rfl

theorem Reads.bare (reads : Reads .operand whole tokens) : Reads .negation whole tokens :=
  fun more stops => (reads more (stops.of_subset (by decide))).trans
    (indices_of_none (stops .openBracket (by decide)))

theorem Reads.negate (reads : Reads .negation whole tokens) :
    Reads .negation (.negate whole) (⟨.symbol .minus, line⟩ :: tokens) :=
  fun more stops => negation_of_minus rfl (reads more stops)

/-- Where no assignment begins, a chain of comparisons is read to its end. -/
theorem Reads.comparison (reads : Reads (.chain .comparison) whole tokens)
    (stops : Stops (.chain .comparison) more) (ends : Level.comparison.takeOperator? more = none) :
    Parsed.outcome (chain .comparison (tokens ++ more)) = .ok (whole, more) :=
  (reads more stops).trans (chainBehind_of_none ends)

theorem Reads.value (reads : Reads (.chain .comparison) whole tokens) :
    Reads .assignment whole tokens := by
  intro more stops
  have ends := stops.takeOperator? fun _ _ => comparison_mem_continuations
  exact expression_of_chain (reads.comparison (stops.of_subset (by decide)) ends)
    (stops .becomes (by decide))

theorem Reads.assign {target value : SourceExpr} (assigns : assignTo? target value = some whole)
    (before : Reads (.chain .comparison) target front) (behind : Reads .assignment value back) :
    Reads .assignment whole (front ++ ⟨.symbol .becomes, line⟩ :: back) := by
  intro more stops
  rw [List.append_assoc]
  have first : Parsed.outcome (chain .comparison
      (front ++ ⟨.symbol .becomes, line⟩ :: (back ++ more))) =
        .ok (target, ⟨.symbol .becomes, line⟩ :: (back ++ more)) :=
    before.comparison (stops_cons (by decide)) rfl
  exact expression_of_becomes first rfl (behind more stops) assigns

theorem Reads.item {base index : SourceExpr} {inside : List Token} {last : Nat}
    (before : Reads .operand base front) (reads : Reads .assignment index inside) :
    Reads .operand (.item base index)
      (front ++ ⟨.symbol .openBracket, line⟩ :: (inside ++ [⟨.symbol .closeBracket, last⟩])) := by
  intro more stops
  have inner := reads (⟨.symbol .closeBracket, last⟩ :: more) (stops_cons (by decide))
  have first := before (⟨.symbol .openBracket, line⟩ ::
    (inside ++ ⟨.symbol .closeBracket, last⟩ :: more)) (stops_cons (by decide))
  rw [List.append_assoc, List.cons_append, List.append_assoc]
  exact first.trans (indices_of_some rfl inner rfl)

theorem Reads.parens {inside : List Token} {last : Nat} (reads : Reads .assignment whole inside) :
    Reads .operand whole
      (⟨.symbol .openParen, line⟩ :: (inside ++ [⟨.symbol .closeParen, last⟩])) := by
  intro more stops
  have inner := reads (⟨.symbol .closeParen, last⟩ :: more) (stops_cons (by decide))
  rw [List.cons_append, List.append_assoc]
  exact negation_of_primary rfl (primary_parens line inner rfl)

theorem Reads.number (value : Float) : Reads .operand (.number value) [⟨.number value, line⟩] :=
  fun _ _ => negation_of_primary rfl (primary_number value line)

theorem Reads.variable (name : String) : Reads .operand (.variable name) [⟨.name name, line⟩] :=
  fun _ stops => negation_of_primary rfl
    (primary_variable name line (stops .openParen (by decide)))

theorem Reads.callNothing (function : String) {opening closing : Nat} :
    Reads .operand (.call function [])
      [⟨.name function, line⟩, ⟨.symbol .openParen, opening⟩, ⟨.symbol .closeParen, closing⟩] :=
  fun _ _ => negation_of_primary rfl (primary_callNothing function line rfl rfl)

theorem Reads.call (function : String) {arguments : List SourceExpr} {inside : List Token}
    {opening : Nat} (reads : ReadsArguments arguments inside)
    (some : ∀ more, takeSymbol? .closeParen (inside ++ more) = none) :
    Reads .operand (.call function arguments)
      (⟨.name function, line⟩ :: ⟨.symbol .openParen, opening⟩ :: inside) :=
  fun more _ => negation_of_primary rfl
    (primary_call function line rfl (some more) (reads [] more))

theorem ReadsArguments.last {closing : Nat} (reads : Reads .assignment whole front) :
    ReadsArguments [whole] (front ++ [⟨.symbol .closeParen, closing⟩]) := by
  intro done more
  have inner := reads (⟨.symbol .closeParen, closing⟩ :: more) (stops_cons (by decide))
  rw [List.append_assoc]
  exact arguments_of_close inner rfl

theorem ReadsArguments.next {others : List SourceExpr} (reads : Reads .assignment whole front)
    (behind : ReadsArguments others back) :
    ReadsArguments (whole :: others) (front ++ ⟨.symbol .comma, line⟩ :: back) := by
  intro done more
  have inner := reads (⟨.symbol .comma, line⟩ :: (back ++ more)) (stops_cons (by decide))
  rw [List.append_assoc]
  refine (arguments_of_comma inner rfl rfl).trans ?_
  rw [behind, List.reverse_cons, List.append_assoc]
  rfl

end Reading

/-! ## Written programs -/

/-- A lexeme with which an expression may begin. -/
def Lexeme.begins : Lexeme → Prop
  | .number _ | .name _ | .symbol .minus | .symbol .openParen => True
  | _ => False

mutual

/-- A written expression is not empty and begins like one. -/
theorem Writes.begins : ∀ {tightness : Tightness} {whole : SourceExpr} {lexemes : List Lexeme},
    Writes tightness whole lexemes → ∃ first rest, lexemes = first :: rest ∧ first.begins
  | _, _, _, .number _ => ⟨_, _, rfl, trivial⟩
  | _, _, _, .variable _ => ⟨_, _, rfl, trivial⟩
  | _, _, _, .callNothing _ => ⟨_, _, rfl, trivial⟩
  | _, _, _, .call _ _ => ⟨_, _, rfl, trivial⟩
  | _, _, _, .item written _ | _, _, _, .binary _ written _ | _, _, _, .assign _ written _ => by
      rcases written.begins with ⟨first, rest, rfl, begins⟩
      exact ⟨first, _, rfl, begins⟩
  | _, _, _, .parens _ => ⟨_, _, rfl, trivial⟩
  | _, _, _, .negate _ => ⟨_, _, rfl, trivial⟩
  | _, _, _, .bare written | _, _, _, .single written | _, _, _, .value written => written.begins

end

theorem WritesArguments.begins {arguments : List SourceExpr} {lexemes : List Lexeme}
    (listed : WritesArguments arguments lexemes) :
    ∃ first rest, lexemes = first :: rest ∧ first.begins := by
  rcases listed with ⟨written⟩ | ⟨written, _⟩
  all_goals
    rcases written.begins with ⟨first, rest, rfl, begins⟩
    exact ⟨first, _, rfl, begins⟩

/-- A symbol with which no expression begins is not in front of one. -/
theorem takeSymbol?_of_begins {tokens : List Token} {first : Lexeme} {rest : List Lexeme}
    {symbol : Symbol} (lexed : tokens.map Token.lexeme = first :: rest) (begins : first.begins)
    (other : ¬ (Lexeme.symbol symbol).begins) (more : List Token) :
    takeSymbol? symbol (tokens ++ more) = none := by
  rcases exists_first lexed with ⟨line, behind, rfl, _⟩
  cases first with
  | symbol found =>
      have different : found ≠ symbol := fun same => other (same ▸ begins)
      exact if_neg different
  | number | name | text => rfl

mutual

/-- However an expression is written, its reader reads it. -/
theorem Writes.reads : ∀ {tightness : Tightness} {whole : SourceExpr} {lexemes : List Lexeme},
    Writes tightness whole lexemes → ∀ tokens : List Token, tokens.map Token.lexeme = lexemes →
      Reads tightness whole tokens
  | _, _, _, .number value, tokens, lexed => by
      rcases exists_first lexed with ⟨line, behind, rfl, nothing⟩
      rw [List.map_eq_nil_iff.mp nothing]
      exact .number value
  | _, _, _, .variable name, tokens, lexed => by
      rcases exists_first lexed with ⟨line, behind, rfl, nothing⟩
      rw [List.map_eq_nil_iff.mp nothing]
      exact .variable name
  | _, _, _, .callNothing function, tokens, lexed => by
      rcases exists_first lexed with ⟨line, behind, rfl, lexedBehind⟩
      rcases exists_first lexedBehind with ⟨opening, others, rfl, lexedOthers⟩
      rcases exists_first lexedOthers with ⟨closing, end', rfl, nothing⟩
      rw [List.map_eq_nil_iff.mp nothing]
      exact .callNothing function
  | _, _, _, .call function listed, tokens, lexed => by
      rcases exists_first lexed with ⟨line, behind, rfl, lexedBehind⟩
      rcases exists_first lexedBehind with ⟨opening, inside, rfl, lexedInside⟩
      have read := listed.reads inside lexedInside
      rcases listed.begins with ⟨first, rest, shape, begins⟩
      exact .call function read (takeSymbol?_of_begins (lexedInside.trans shape) begins id)
  | _, _, _, .item written indexed, tokens, lexed => by
      rcases exists_token lexed with ⟨before, line, others, rfl, lexedBefore, lexedOthers⟩
      rcases exists_token lexedOthers with ⟨inside, last, behind, rfl, lexedInside, lexedBehind⟩
      rw [List.map_eq_nil_iff.mp lexedBehind]
      exact .item (written.reads before lexedBefore) (indexed.reads inside lexedInside)
  | _, _, _, .parens written, tokens, lexed => by
      rcases exists_first lexed with ⟨line, others, rfl, lexedOthers⟩
      rcases exists_token lexedOthers with ⟨inside, last, behind, rfl, lexedInside, lexedBehind⟩
      rw [List.map_eq_nil_iff.mp lexedBehind]
      exact .parens (written.reads inside lexedInside)
  | _, _, _, .negate written, tokens, lexed => by
      rcases exists_first lexed with ⟨line, behind, rfl, lexedBehind⟩
      exact .negate (written.reads behind lexedBehind)
  | _, _, _, .binary stands written follows, tokens, lexed => by
      rcases exists_token lexed with ⟨before, line, behind, rfl, lexedBefore, lexedBehind⟩
      exact .binary stands (written.reads before lexedBefore) (follows.reads behind lexedBehind)
  | _, _, _, .assign assigns written follows, tokens, lexed => by
      rcases exists_token lexed with ⟨before, line, behind, rfl, lexedBefore, lexedBehind⟩
      exact .assign assigns (written.reads before lexedBefore) (follows.reads behind lexedBehind)
  | _, _, _, .bare written, tokens, lexed => (written.reads tokens lexed).bare
  | _, _, _, .single written, tokens, lexed => (written.reads tokens lexed).single
  | _, _, _, .value written, tokens, lexed => (written.reads tokens lexed).value

theorem WritesArguments.reads : ∀ {arguments : List SourceExpr} {lexemes : List Lexeme},
    WritesArguments arguments lexemes → ∀ tokens : List Token,
      tokens.map Token.lexeme = lexemes → ReadsArguments arguments tokens
  | _, _, .last written, tokens, lexed => by
      rcases exists_token lexed with ⟨before, line, behind, rfl, lexedBefore, lexedBehind⟩
      rw [List.map_eq_nil_iff.mp lexedBehind]
      exact .last (written.reads before lexedBefore)
  | _, _, .more written follows, tokens, lexed => by
      rcases exists_token lexed with ⟨before, line, behind, rfl, lexedBefore, lexedBehind⟩
      exact .next (written.reads before lexedBefore) (follows.reads behind lexedBehind)

end

section Statements

variable {tokens rest : List Token} {done : List SourceExpr} {next : SourceExpr}

theorem statementsBehind_of_last (begins : takeSymbol? .semicolon tokens = none)
    (read : Parsed.outcome (expression tokens) = .ok (next, [])) :
    statementsBehind done tokens = .ok (done.reverse ++ [next]) := by
  have whole : Reader.statement tokens = .ok (next, []) := Reader.statement_of_ok read
  cases tokens with
  | nil => cases Parsed.length_lt_of_outcome read
  | cons token others =>
      rw [statementsBehind_of_statement begins, whole]
      show statementsBehind (next :: done) [] = _
      rw [statementsBehind, List.reverse_cons]

theorem statementsBehind_of_more {behind : List Token}
    (begins : takeSymbol? .semicolon tokens = none)
    (read : Parsed.outcome (expression tokens) = .ok (next, rest))
    (ends : takeSymbol? .semicolon rest = some behind) :
    statementsBehind done tokens = statementsBehind (next :: done) behind := by
  have whole : Reader.statement tokens = .ok (next, behind) :=
    (Reader.statement_of_ok read).trans (Reader.ended_of_semicolon ends)
  cases tokens with
  | nil => cases Parsed.length_lt_of_outcome read
  | cons token others =>
      rw [statementsBehind_of_statement begins, whole]
      rfl

end Statements

/-- However a program is written, its statements are read. -/
theorem WritesProgram.reads {statements : List SourceExpr} {lexemes : List Lexeme}
    (written : WritesProgram statements lexemes) {tokens : List Token}
    (lexed : tokens.map Token.lexeme = lexemes) (done : List SourceExpr) :
    statementsBehind done tokens = .ok (done.reverse ++ statements) := by
  induction written generalizing tokens done with
  | nothing =>
      rw [List.map_eq_nil_iff.mp lexed, statementsBehind, List.append_nil]
  | skip _ ih =>
      rcases exists_first lexed with ⟨line, behind, rfl, lexedBehind⟩
      have ends : takeSymbol? .semicolon (⟨.symbol .semicolon, line⟩ :: behind) = some behind := rfl
      rw [statementsBehind_of_semicolon ends]
      exact ih lexedBehind done
  | last written =>
      rcases written.begins with ⟨first, rest, shape, begins⟩
      have starts : takeSymbol? .semicolon (_ ++ []) = none :=
        takeSymbol?_of_begins (lexed.trans shape) begins id []
      have read := written.reads tokens lexed [] (stops_nil _)
      rw [List.append_nil] at starts read
      exact statementsBehind_of_last starts read
  | more written _ ih =>
      rcases written.begins with ⟨first, rest, shape, begins⟩
      rcases exists_token lexed with ⟨before, line, behind, rfl, lexedBefore, lexedBehind⟩
      have starts : takeSymbol? .semicolon (before ++ ⟨.symbol .semicolon, line⟩ :: behind) = none :=
        takeSymbol?_of_begins (lexedBefore.trans shape) begins id _
      have read := written.reads before lexedBefore (⟨.symbol .semicolon, line⟩ :: behind)
        (stops_cons (by decide))
      rw [statementsBehind_of_more starts read rfl, ih lexedBehind, List.reverse_cons,
        List.append_assoc]
      rfl

end Code
end EffectHost

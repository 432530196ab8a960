import EffectHost.Proofs.Code.Layout
import EffectHost.Proofs.Code.Linking

/-!
# Printed programs

A program that is written out, with parentheses at least where they are needed and laid out in
any way, compiles to the program itself: its expressions come back from the text, and linking
replaces its names by cells.
-/

namespace EffectHost
namespace Code

open Machine

/-- An expression without quoted texts, of which all numbers and names can be written. -/
inductive Plain : SourceExpr → Prop where
  | number (literal : DecimalLiteral) : Plain (.number literal.value)
  | name {name : String} (named : isName name = true) : Plain (.variable name)
  | item {base index : SourceExpr} (base' : Plain base) (index' : Plain index) :
      Plain (.item base index)
  | negate {operand : SourceExpr} (operand' : Plain operand) : Plain (.negate operand)
  | binary {left right : SourceExpr} (op : BinaryOp) (left' : Plain left) (right' : Plain right) :
      Plain (.binary op left right)
  | call {function : String} {arguments : List SourceExpr} (named : isName function = true)
      (each : ∀ argument ∈ arguments, Plain argument) : Plain (.call function arguments)
  | assign {name : String} {value : SourceExpr} (named : isName name = true)
      (value' : Plain value) : Plain (.assign name value)
  | assignItem {base index value : SourceExpr} (base' : Plain base) (index' : Plain index)
      (value' : Plain value) : Plain (.assignItem base index value)

/-! ## There is a text for every program -/

/-- Each of the lexemes can be written. -/
def Writable (lexemes : List Lexeme) : Prop :=
  ∀ lexeme ∈ lexemes, ∃ word, Spells lexeme word

namespace Writable

variable {front back : List Lexeme}

theorem single {lexeme : Lexeme} {word : List Char} (spelled : Spells lexeme word) :
    Writable [lexeme] :=
  List.forall_mem_singleton.mpr ⟨word, spelled⟩

theorem append (before : Writable front) (behind : Writable back) : Writable (front ++ back) :=
  List.forall_mem_append.mpr ⟨before, behind⟩

theorem cons (symbol : Symbol) (behind : Writable back) : Writable (.symbol symbol :: back) :=
  List.forall_mem_cons.mpr ⟨⟨_, .symbol symbol⟩, behind⟩

theorem symbol (symbol : Symbol) : Writable [.symbol symbol] :=
  single (.symbol symbol)

end Writable

theorem exists_layout {lexemes : List Lexeme} (writable : Writable lexemes) :
    ∃ text, LaysOut lexemes text := by
  induction lexemes with
  | nil => exact ⟨[], .nothing⟩
  | cons lexeme others ih =>
      rcases List.forall_mem_cons.mp writable with ⟨⟨word, spelled⟩, more⟩
      rcases ih more with ⟨text, laid⟩
      refine ⟨word ++ ' ' :: text, .lexeme spelled ?_ (.blank rfl laid)⟩
      intro _ behind same
      cases same

/-- The expression can be written as an expression of the given kind. -/
def Has (tightness : Tightness) (whole : SourceExpr) : Prop :=
  ∃ lexemes, Writes tightness whole lexemes ∧ Writable lexemes

namespace Has

variable {whole : SourceExpr}

/-- In parentheses, whatever can be written is an operand. -/
theorem operand (has : Has .assignment whole) : Has .operand whole := by
  rcases has with ⟨lexemes, written, writable⟩
  exact ⟨_, .parens written, .cons .openParen (writable.append (.symbol .closeParen))⟩

theorem negation (has : Has .operand whole) : Has .negation whole := by
  rcases has with ⟨lexemes, written, writable⟩
  exact ⟨lexemes, .bare written, writable⟩

theorem chain {level : Level} (has : Has level.tighter whole) : Has (.chain level) whole := by
  rcases has with ⟨lexemes, written, writable⟩
  exact ⟨lexemes, .single written, writable⟩

theorem value (has : Has (.chain .comparison) whole) : Has .assignment whole := by
  rcases has with ⟨lexemes, written, writable⟩
  exact ⟨lexemes, .value written, writable⟩

/-- An operand is an operand of every chain. -/
theorem tighter (has : Has .operand whole) (level : Level) : Has level.tighter whole := by
  have product : Has (.chain .product) whole := chain has.negation
  have sum : Has (.chain .sum) whole := chain product
  cases level with
  | product => exact has.negation
  | sum => exact product
  | comparison => exact sum

/-- A chain is an expression. -/
theorem loose {level : Level} (has : Has (.chain level) whole) : Has .assignment whole := by
  cases level with
  | comparison => exact has.value
  | sum => exact value (chain has)
  | product =>
      have sum : Has (.chain .sum) whole := chain has
      exact value (chain sum)

/-- An operand is an expression. -/
theorem assignment (has : Has .operand whole) : Has .assignment whole :=
  value (chain (has.tighter .comparison))

end Has

/-- Every operator belongs to some level. -/
theorem exists_operator (op : BinaryOp) :
    ∃ (level : Level) (symbol : Symbol), level.operator? symbol = some op := by
  cases op with
  | add => exact ⟨.sum, .plus, rfl⟩
  | subtract => exact ⟨.sum, .minus, rfl⟩
  | multiply => exact ⟨.product, .times, rfl⟩
  | divide => exact ⟨.product, .over, rfl⟩
  | equal => exact ⟨.comparison, .equal, rfl⟩
  | unequal => exact ⟨.comparison, .unequal, rfl⟩
  | below => exact ⟨.comparison, .below, rfl⟩
  | atMost => exact ⟨.comparison, .atMost, rfl⟩
  | above => exact ⟨.comparison, .above, rfl⟩
  | atLeast => exact ⟨.comparison, .atLeast, rfl⟩

theorem has_binary {level : Level} {symbol : Symbol} {op : BinaryOp} {left right : SourceExpr}
    (stands : level.operator? symbol = some op) (left' : Has .operand left)
    (right' : Has .operand right) : Has (.chain level) (.binary op left right) := by
  rcases Has.chain (left'.tighter level) with ⟨front, before, writable⟩
  rcases right'.tighter level with ⟨back, behind, writableBehind⟩
  exact ⟨_, .binary stands before behind, writable.append (.cons symbol writableBehind)⟩

theorem has_assign {target value whole : SourceExpr} (assigns : assignTo? target value = some whole)
    (target' : Has .operand target) (value' : Has .operand value) : Has .assignment whole := by
  rcases Has.chain (target'.tighter .comparison) with ⟨front, before, writable⟩
  rcases value'.assignment with ⟨back, behind, writableBehind⟩
  exact ⟨_, .assign assigns before behind, writable.append (.cons .becomes writableBehind)⟩

theorem has_item {base index : SourceExpr} (base' : Has .operand base)
    (index' : Has .operand index) : Has .operand (.item base index) := by
  rcases base' with ⟨front, before, writable⟩
  rcases index'.assignment with ⟨inside, indexed, writableInside⟩
  exact ⟨_, .item before indexed, writable.append
    (.cons .openBracket (writableInside.append (.symbol .closeBracket)))⟩

theorem exists_arguments {first : SourceExpr} {others : List SourceExpr}
    (each : ∀ argument ∈ first :: others, Has .operand argument) :
    ∃ lexemes, WritesArguments (first :: others) lexemes ∧ Writable lexemes := by
  induction others generalizing first with
  | nil =>
      rcases (each first List.mem_cons_self).assignment with ⟨front, written, writable⟩
      exact ⟨_, .last written, writable.append (.symbol .closeParen)⟩
  | cons second others ih =>
      rcases List.forall_mem_cons.mp each with ⟨has, more⟩
      rcases has.assignment with ⟨front, written, writable⟩
      rcases ih more with ⟨back, behind, writableBehind⟩
      exact ⟨_, .more written behind, writable.append (.cons .comma writableBehind)⟩

/-- Every plain expression can be written. -/
theorem Plain.has {whole : SourceExpr} (plain : Plain whole) : Has .operand whole := by
  induction plain with
  | number literal => exact ⟨_, .number literal.value, .single (.number literal)⟩
  | name named => exact ⟨_, .variable _, .single (.name named)⟩
  | item _ _ base index => exact has_item base index
  | negate _ operand =>
      rcases operand.negation with ⟨behind, written, writable⟩
      have sign : Has Level.product.tighter _ := ⟨_, .negate written, .cons .minus writable⟩
      exact sign.chain.loose.operand
  | binary op _ _ left right =>
      rcases exists_operator op with ⟨level, symbol, stands⟩
      exact (has_binary stands left right).loose.operand
  | @call function arguments named _ each =>
      cases arguments with
      | nil =>
          exact ⟨_, .callNothing function,
            (Writable.single (.name named)).append (.cons .openParen (.symbol .closeParen))⟩
      | cons first others =>
          rcases exists_arguments each with ⟨inside, listed, writable⟩
          exact ⟨_, .call function listed,
            (Writable.single (.name named)).append (.cons .openParen writable)⟩
  | @assign name value named _ value' =>
      have target : Has .operand (.variable name) := ⟨_, .variable name, .single (.name named)⟩
      exact (has_assign rfl target value').operand
  | assignItem _ _ _ base index value => exact (has_assign rfl (has_item base index) value).operand

/-- Every program of plain expressions can be printed. -/
theorem exists_printed {statements : List SourceExpr}
    (plain : ∀ statement ∈ statements, Plain statement) : ∃ text, Printed statements text := by
  have written : ∃ lexemes, WritesProgram statements lexemes ∧ Writable lexemes := by
    induction statements with
    | nil => exact ⟨[], .nothing, List.forall_mem_nil _⟩
    | cons statement others ih =>
        rcases List.forall_mem_cons.mp plain with ⟨first, more⟩
        rcases first.has.assignment with ⟨front, written, writable⟩
        rcases ih more with ⟨back, behind, writableBehind⟩
        exact ⟨_, .more written behind, writable.append (.cons .semicolon writableBehind)⟩
  rcases written with ⟨lexemes, written, writable⟩
  rcases exists_layout writable with ⟨text, laid⟩
  refine ⟨String.ofList text, lexemes, written, ?_⟩
  rw [String.toList_ofList]
  exact laid

/-! ## Compiling what was printed -/

/-- Linking replaces the names of a plain expression by what they denote in the end. -/
theorem Plain.linksTo {resolve : String → Option Cell} {expression : SourceExpr}
    (plain : Plain expression) {last : Machine} (machine : Machine)
    (grows : Grows (linkExpr resolve expression machine).2 last) :
    LinksTo resolve last expression (linkExpr resolve expression machine).1 := by
  induction plain generalizing machine with
  | number literal => exact ⟨fun _ => rfl, fun _ impossible => nomatch impossible⟩
  | name named =>
      rcases link_denoted grows with ⟨denotes, knows⟩
      exact ⟨fun _ => congrArg Expr.variable denotes, List.forall_mem_singleton.mpr knows⟩
  | item _ _ base index =>
      have front := base machine ((grows_linkExpr resolve _ _).trans grows)
      have back := index _ grows
      exact ⟨fun text' => congrArg₂ Expr.item (front.relabeled text') (back.relabeled text'),
        List.forall_mem_append.mpr ⟨front.known, back.known⟩⟩
  | negate _ operand =>
      have inner := operand machine grows
      exact ⟨fun text' => congrArg Expr.negate (inner.relabeled text'), inner.known⟩
  | binary op _ _ left right =>
      have front := left machine ((grows_linkExpr resolve _ _).trans grows)
      have back := right _ grows
      exact ⟨fun text' => congrArg₂ (Expr.binary op) (front.relabeled text') (back.relabeled text'),
        List.forall_mem_append.mpr ⟨front.known, back.known⟩⟩
  | @call function arguments _ _ each =>
      have all := linkAllTo_linkAll each machine grows
      exact ⟨fun text' => congrArg (Expr.call function) (all.relabeled text'), all.known⟩
  | assign _ _ value =>
      rcases link_denoted ((grows_linkExpr resolve _ _).trans grows) with ⟨denotes, knows⟩
      have inner := value _ grows
      exact ⟨fun text' => congrArg₂ Expr.assign denotes (inner.relabeled text'),
        List.forall_mem_cons.mpr ⟨knows, inner.known⟩⟩
  | @assignItem base index value _ _ _ linksBase linksIndex linksValue =>
      have growsIndex : Grows (linkExpr resolve index (linkExpr resolve base machine).2).2 last :=
        (grows_linkExpr resolve value _).trans grows
      have front := linksBase machine ((grows_linkExpr resolve index _).trans growsIndex)
      have middle := linksIndex _ growsIndex
      have back := linksValue _ grows
      refine ⟨fun text' => ?_, List.forall_mem_append.mpr
        ⟨List.forall_mem_append.mpr ⟨front.known, middle.known⟩, back.known⟩⟩
      show Expr.assignItem _ _ _ = Expr.assignItem _ _ _
      rw [front.relabeled text', middle.relabeled text', back.relabeled text']

end Code

namespace Machine

open Code

/-- **Every program can be printed, and whatever way it is printed, it compiles to itself.**  In
the program that the machine gains, each name stands for one cell.  It is the one that the caller
assigns to the name, or else the one that the machine knows by it from then on; and these differ
for different names. -/
theorem compile_printed {statements : List SourceExpr}
    (plain : ∀ statement ∈ statements, Plain statement) {machine : Machine}
    (used : machine.Used) (resolve : String → Option Cell) :
    (∃ text, Printed statements text) ∧
    ∀ text, Printed statements text → ∃ (cell : String → Cell) (next : Machine),
      machine.compile text resolve = (.ok machine.code.nextProgram, next) ∧
      (∀ text', next.code.programs = machine.code.programs.insert machine.code.nextProgram
        (statements.map (Expr.relabel cell text'))) ∧
      (∀ name ∈ variablesOfAll statements, ∀ own, resolve name = some own → cell name = own) ∧
      (∀ name ∈ variablesOfAll statements, resolve name = none →
        next.code.names[name]? = some (cell name)) ∧
      ∀ first ∈ variablesOfAll statements, ∀ second ∈ variablesOfAll statements,
        resolve first = none → resolve second = none → cell first = cell second →
          first = second := by
  refine ⟨exists_printed plain, ?_⟩
  intro text printed
  rcases printed.read with ⟨tokens, scanned, read⟩
  have grown := grows_linkAll resolve statements machine
  have separated := grown.separated used.separated
  have linked := linkAllTo_linkAll
    (fun statement member machine grows => (plain statement member).linksTo machine grows)
    machine (.refl (linkAll resolve statements machine).2)
  have kept := samePrograms_linkAll resolve statements machine
  refine ⟨denoted resolve (linkAll resolve statements machine).2,
    ((linkAll resolve statements machine).2.addProgram
      (linkAll resolve statements machine).1).2, ?_, ?_, ?_, ?_, ?_⟩
  · rw [compile, scanned]
    dsimp only
    rw [read]
    exact Prod.ext (congrArg Except.ok kept.nextProgram) rfl
  · intro text'
    rw [← kept.programs, ← kept.nextProgram, ← relabelAll_eq_map, ← linked.relabeled text']
    rfl
  · intro name _ own resolved
    rw [denoted, resolved]
    rfl
  · intro name member unresolved
    rcases linked.known name member with ⟨cell, known⟩
    rw [denoted, known, Option.getD_some]
    rw [unresolved] at known
    exact known
  · intro first one second two unresolved unresolvedToo same
    exact separated.eq_of_denoted unresolved unresolvedToo (linked.known first one)
      (linked.known second two) same

/-! ### A program with little between its lexemes -/

/-- The digit two. -/
def two : DecimalLiteral :=
  ⟨['2'], none, List.forall_mem_singleton.mpr rfl, List.cons_ne_nil _ _⟩

/-- A half, with nothing in front of the point. -/
def half : DecimalLiteral :=
  ⟨[], some ['5'], List.forall_mem_singleton.mpr rfl, List.cons_ne_nil _ _⟩

/-- Divide a slot of memory, and pass the result on. -/
def halving : List SourceExpr :=
  [.assign "x" (.binary .divide (.negate (.item (.variable "y") (.number two.value)))
    (.number half.value)), .call "f" [.variable "x"]]

/-- How the program is written. -/
def halvingText : String :=
  "x=-y[2] / // half\n.5;f(x)"

theorem plain_halving : ∀ statement ∈ halving, Plain statement := by
  have x : Plain (.variable "x") := .name (by decide)
  have slot : Plain (.item (.variable "y") (.number two.value)) :=
    .item (.name (by decide)) (.number two)
  have quotient := Plain.binary .divide (.negate slot) (.number half)
  refine List.forall_mem_cons.mpr ⟨.assign (by decide) quotient, List.forall_mem_singleton.mpr ?_⟩
  exact .call (by decide) (List.forall_mem_singleton.mpr x)

/-- The lexemes of the program. -/
def halvingLexemes : List Lexeme :=
  [.name "x", .symbol .becomes, .symbol .minus, .name "y", .symbol .openBracket,
    .number two.value, .symbol .closeBracket, .symbol .over, .number half.value,
    .symbol .semicolon, .name "f", .symbol .openParen, .name "x", .symbol .closeParen]

theorem writes_halving : WritesProgram halving halvingLexemes := by
  have expression {whole : SourceExpr} {lexemes : List Lexeme}
      (written : Writes .operand whole lexemes) : Writes (.chain .comparison) whole lexemes :=
    have product : Writes (.chain .product) whole lexemes := .single (.bare written)
    have sum : Writes (.chain .sum) whole lexemes := .single product
    .single sum
  have slot := Writes.negate (.bare (.item (.variable "y") (.value (expression (.number two.value)))))
  have divides : Level.product.operator? .over = some .divide := rfl
  have quotient := Writes.binary divides (.single slot) (.bare (.number half.value))
  have sum : Writes (.chain .sum) _ _ := .single quotient
  have first := Writes.assign rfl (expression (.variable "x")) (.value (.single sum))
  have second := Writes.call "f" (.last (.value (expression (.variable "x"))))
  have whole := WritesProgram.more first (.last (.value (expression second)))
  exact whole

theorem printed_halving : Printed halving halvingText := by
  have symbol (symbol : Symbol) (other : symbol ≠ .over) {lexemes : List Lexeme}
      {rest : List Char} (behind : LaysOut lexemes rest) :
      LaysOut (.symbol symbol :: lexemes) (symbol.text.toList ++ rest) :=
    .lexeme (.symbol symbol) (fun same => absurd (Lexeme.symbol.inj same) other) behind
  have name (name : String) (named : isName name = true) {lexemes : List Lexeme}
      {rest : List Char} (behind : LaysOut lexemes rest) :
      LaysOut (.name name :: lexemes) (name.toList ++ rest) :=
    .lexeme (.name named) (fun impossible => nomatch impossible) behind
  have number (literal : DecimalLiteral) {lexemes : List Lexeme} {rest : List Char}
      (behind : LaysOut lexemes rest) :
      LaysOut (.number literal.value :: lexemes) (literal.text ++ rest) :=
    .lexeme (.number literal) (fun impossible => nomatch impossible) behind
  have space : isSpace ' ' = true := rfl
  have lineFeed : isSpace '\n' = true := rfl
  have single : '\n' ∉ " half".toList := by decide
  have call := name "f" (by decide) (symbol .openParen (by decide)
    (name "x" (by decide) (symbol .closeParen (by decide) .nothing)))
  have behind := LaysOut.blank lineFeed (number half (symbol .semicolon (by decide) call))
  have comment := LaysOut.blank space (LaysOut.lineComment single (.inr ⟨_, rfl⟩) behind)
  have apart : Lexeme.symbol .over = .symbol .over → ∀ more,
      ' ' :: ("// half".toList ++ '\n' :: ".5;f(x)".toList) ≠ '/' :: more :=
    fun _ _ same => absurd (List.cons.inj same).1 (by decide)
  have division := LaysOut.lexeme (.symbol .over) apart comment
  have slot := name "y" (by decide) (symbol .openBracket (by decide)
    (number two (symbol .closeBracket (by decide) (.blank space division))))
  exact ⟨halvingLexemes, writes_halving,
    name "x" (by decide) (symbol .becomes (by decide) (symbol .minus (by decide) slot))⟩

theorem compile_printed_halving :
    (∀ statement ∈ halving, Plain statement) ∧ Used {} ∧ Printed halving halvingText ∧
      ∃ (cell : String → Cell) (next : Machine),
        ({} : Machine).compile halvingText (fun _ => none) = (.ok 1, next) ∧
        cell "x" ≠ cell "y" ∧
        next.code.programs[1]? = some [
          .assign (cell "x") (.binary .divide
            (.negate (.item (.variable (cell "y")) (.number two.value))) (.number half.value)),
          .call "f" [.variable (cell "x")]] := by
  refine ⟨plain_halving, .new, printed_halving, ?_⟩
  rcases (compile_printed plain_halving .new fun _ => none).2 halvingText printed_halving with
    ⟨cell, next, compiled, programs, _, _, apart⟩
  refine ⟨cell, next, compiled, ?_, ?_⟩
  · intro same
    have x : "x" ∈ variablesOfAll halving := List.mem_cons_self
    have y : "y" ∈ variablesOfAll halving := List.mem_cons_of_mem _ List.mem_cons_self
    exact absurd (apart "x" x "y" y rfl rfl same) (by decide)
  · rw [programs fun _ => 0]
    exact Std.HashMap.getElem?_insert_self

end Machine
end EffectHost

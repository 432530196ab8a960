import EffectHost.Proofs.Code.Agreement
import EffectHost.Proofs.Code.Compiling
import EffectHost.Proofs.Code.Run
import Mathlib.Logic.Basic

/-!
# What names in code denote

Linking replaces each name by a cell and changes nothing else in an expression.  The cells that
a machine knows by name only become more while it links, so that what a name denotes in the end
is what every occurrence of it was replaced by.  A new name gets a cell behind all others.
Hence different names denote different cells, as long as nobody takes cells away.
-/

namespace EffectHost

open Code

/-! ## Other words for variables and texts -/

namespace Code

mutual

/-- The expression with every variable and every text replaced. -/
def Expr.relabel {ν τ ν' τ' : Type} (variable' : ν → ν') (text' : τ → τ') :
    Expr ν τ → Expr ν' τ'
  | .number value => .number value
  | .text content => .text (text' content)
  | .variable name => .variable (variable' name)
  | .item base index => .item (base.relabel variable' text') (index.relabel variable' text')
  | .negate operand => .negate (operand.relabel variable' text')
  | .binary op left right =>
    .binary op (left.relabel variable' text') (right.relabel variable' text')
  | .call function arguments => .call function (relabelAll variable' text' arguments)
  | .assign name value => .assign (variable' name) (value.relabel variable' text')
  | .assignItem base index value =>
    .assignItem (base.relabel variable' text') (index.relabel variable' text')
      (value.relabel variable' text')
termination_by structural expression => expression

/-- The expressions with every variable and every text replaced. -/
def relabelAll {ν τ ν' τ' : Type} (variable' : ν → ν') (text' : τ → τ') :
    List (Expr ν τ) → List (Expr ν' τ')
  | [] => []
  | first :: others => first.relabel variable' text' :: relabelAll variable' text' others
termination_by structural expressions => expressions

end

theorem relabelAll_eq_map {ν τ ν' τ' : Type} (variable' : ν → ν') (text' : τ → τ')
    (expressions : List (Expr ν τ)) :
    relabelAll variable' text' expressions = expressions.map (Expr.relabel variable' text') := by
  induction expressions with
  | nil => rfl
  | cons first others ih => exact congrArg (first.relabel variable' text' :: ·) ih

end Code

namespace Machine

/-! ## Names are kept, and kept apart -/

/-- Known names denote cells that are there, and different ones. -/
structure Separated (machine : Machine) : Prop where
  there : ∀ (name : String) (cell : Cell), machine.code.names[name]? = some cell →
    cell.index < machine.store.cells.size
  apart : ∀ (first second : String) (cell : Cell), machine.code.names[first]? = some cell →
    machine.code.names[second]? = some cell → first = second

/-- What was known by name still is, and names are still apart. -/
structure Grows (before after : Machine) : Prop where
  names : ∀ (name : String) (cell : Cell), before.code.names[name]? = some cell →
    after.code.names[name]? = some cell
  separated : before.Separated → after.Separated

namespace Grows

theorem refl (machine : Machine) : Grows machine machine :=
  ⟨fun _ _ known => known, id⟩

theorem trans {first second third : Machine} (left : Grows first second)
    (right : Grows second third) : Grows first third :=
  ⟨fun name cell known => right.names name cell (left.names name cell known),
    fun separated => right.separated (left.separated separated)⟩

end Grows

/-- Other names and no more, and no fewer cells. -/
theorem Separated.of_names {before after : Machine} (separated : before.Separated)
    (cells : before.store.cells.size ≤ after.store.cells.size)
    (names : ∀ (name : String) (cell : Cell), after.code.names[name]? = some cell →
      before.code.names[name]? = some cell) : after.Separated where
  there := fun name cell known =>
    Nat.lt_of_lt_of_le (separated.there name cell (names name cell known)) cells
  apart := fun first second cell one two =>
    separated.apart first second cell (names first cell one) (names second cell two)

/-- A new name has a new cell, and every other name an old one. -/
theorem Separated.addName {machine : Machine} (separated : machine.Separated) (name : String) :
    Separated { store := machine.store.addCell.2
                code := { machine.code with
                  names := machine.code.names.insert name machine.store.addCell.1 } } := by
  have entry (other : String) (cell : Cell)
      (found : (machine.code.names.insert name machine.store.addCell.1)[other]? = some cell) :
      other = name ∧ cell.index = machine.store.cells.size ∨
        machine.code.names[other]? = some cell ∧ cell.index < machine.store.cells.size := by
    rw [Std.HashMap.getElem?_insert] at found
    split at found
    · next same =>
        rw [← Option.some.inj found]
        exact .inl ⟨(beq_iff_eq.mp same).symm, rfl⟩
    · exact .inr ⟨found, separated.there other cell found⟩
  constructor
  · intro other cell found
    show cell.index < (machine.store.cells.push 0.0).size
    rw [Array.size_push]
    rcases entry other cell found with ⟨_, fresh⟩ | ⟨_, old⟩ <;> omega
  · intro first second cell one two
    rcases entry first cell one with ⟨rfl, fresh⟩ | ⟨known, old⟩
    · rcases entry second cell two with ⟨rfl, _⟩ | ⟨_, other⟩
      · rfl
      · omega
    · rcases entry second cell two with ⟨rfl, fresh⟩ | ⟨knownToo, _⟩
      · omega
      · exact separated.apart first second cell known knownToo

theorem grows_cellOf (machine : Machine) (name : String) : Grows machine (machine.cellOf name).2 := by
  rw [cellOf]
  cases known : machine.code.names[name]? with
  | some cell => exact .refl machine
  | none =>
      refine ⟨fun other cell old => ?_, fun separated => separated.addName name⟩
      have different : name ≠ other := by
        rintro rfl
        rw [known] at old
        cases old
      show (machine.code.names.insert name _)[other]? = some cell
      rw [Std.HashMap.getElem?_insert, if_neg (by rwa [beq_iff_eq])]
      exact old

/-- A name denotes the cell that it was linked to. -/
theorem cellOf_known (machine : Machine) (name : String) :
    (machine.cellOf name).2.code.names[name]? = some (machine.cellOf name).1 := by
  rw [cellOf]
  cases known : machine.code.names[name]? with
  | some cell => exact known
  | none => exact Std.HashMap.getElem?_insert_self

theorem grows_keptByCompiling : KeptByCompiling Grows where
  trans := Grows.trans
  cellOf := grows_cellOf
  of_sameNames same :=
    ⟨fun _ _ known => same.names ▸ known, fun separated =>
      separated.of_names (Nat.le_of_eq (congrArg Array.size same.cells).symm)
        fun _ _ known => same.names ▸ known⟩

theorem grows_linkExpr (resolve : String → Option Cell) (expression : SourceExpr)
    (machine : Machine) : Grows machine (linkExpr resolve expression machine).2 :=
  (grows_keptByCompiling.keptByLinking resolve).linkExpr expression machine

/-- Linking keeps names. -/
theorem grows_linkAll (resolve : String → Option Cell) (expressions : List SourceExpr)
    (machine : Machine) : Grows machine (linkAll resolve expressions machine).2 :=
  (grows_keptByCompiling.keptByLinking resolve).linkAll expressions machine

/-- What a machine can come to, as long as nobody takes cells away. -/
inductive Used : Machine → Prop where
  | new : Used {}
  | register {machine : Machine} (name : String) (used : Used machine) :
      Used (machine.register name).2
  | compile {machine : Machine} (source : String) (resolve : String → Option Cell)
      (used : Used machine) : Used (machine.compile source resolve).2
  | shareMemory {machine : Machine} (name? : Option String) (used : Used machine) :
      Used { machine with code := { machine.code with sharedMemory := name? } }
  /-- Code or the host writes to variables, memory or strings. -/
  | write {machine : Machine} {store : Store} (used : Used machine)
      (cells : machine.store.cells.size ≤ store.cells.size) :
      Used { machine with store := store }
  | free {machine : Machine} (id : Nat) (used : Used machine) : Used (machine.free id)
  | reset {machine : Machine} (used : Used machine) : Used machine.reset

/-- A program may run whose host takes no cells away. -/
theorem Used.execute {machine : Machine} (used : machine.Used) {σ : Type} {host : CodeHost σ}
    (preserves : host.Preserves fun state => machine.store.cells.size ≤ state.1.cells.size)
    (outer : σ) (id : Nat) :
    Used { machine with
      store := (run host (machine.code.programs.getD id []) (machine.store, outer)).1 } :=
  used.write (run_preserves preserves _ (machine.store, outer) (Nat.le_refl _))

/-- Whatever a machine has been used for, its names are apart. -/
theorem Used.separated {machine : Machine} (used : machine.Used) : machine.Separated := by
  induction used with
  | new =>
      have unknown (name : String) (cell : Cell) :
          ({} : Machine).code.names[name]? ≠ some cell := by
        show (∅ : Std.HashMap String Cell)[name]? ≠ some cell
        rw [Std.HashMap.getElem?_empty]
        exact (Option.some_ne_none cell).symm
      exact ⟨fun name cell known => absurd known (unknown name cell),
        fun first _ cell known => absurd known (unknown first cell)⟩
  | @register machine name _ ih =>
      have known := (grows_cellOf machine name).separated ih
      exact ⟨known.there, known.apart⟩
  | compile source resolve _ ih =>
      exact (grows_keptByCompiling.compile _ source resolve).separated ih
  | shareMemory _ _ ih | free _ _ ih => exact ⟨ih.there, ih.apart⟩
  | write _ cells ih => exact ih.of_names cells fun _ _ known => known
  | @reset machine _ ih =>
      refine @Separated.of_names machine machine.reset ih (Nat.le_refl _) ?_
      intro name cell known
      rw [Machine.reset, Std.HashMap.getElem?_filter', Option.filter_eq_some_iff] at known
      exact known.1

/-! ## What linking makes of an expression -/

/-- The cell that a name denotes in the end. -/
def denoted (resolve : String → Option Cell) (machine : Machine) (name : String) : Cell :=
  (resolve name <|> machine.code.names[name]?).getD ⟨0⟩

/-- The caller or the machine knows the name. -/
def Knows (resolve : String → Option Cell) (machine : Machine) (name : String) : Prop :=
  ∃ cell, (resolve name <|> machine.code.names[name]?) = some cell

/-- In the linked expression, names are replaced by what they denote in a later machine, which
knows them. -/
structure LinksTo (resolve : String → Option Cell) (last : Machine) (expression : SourceExpr)
    (linked : Expr Cell Nat) : Prop where
  relabeled : ∀ text', linked = expression.relabel (denoted resolve last) text'
  known : ∀ name ∈ expression.variables, Knows resolve last name

/-- The same of several expressions. -/
structure LinkAllTo (resolve : String → Option Cell) (last : Machine)
    (expressions : List SourceExpr) (linked : List (Expr Cell Nat)) : Prop where
  relabeled : ∀ text', linked = relabelAll (denoted resolve last) text' expressions
  known : ∀ name ∈ variablesOfAll expressions, Knows resolve last name

theorem link_denoted {resolve : String → Option Cell} {machine last : Machine} {name : String}
    (grows : Grows (machine.link resolve name).2 last) :
    (machine.link resolve name).1 = denoted resolve last name ∧ Knows resolve last name := by
  rw [link] at grows ⊢
  rw [denoted, Knows]
  cases own : resolve name with
  | some cell => exact ⟨rfl, cell, rfl⟩
  | none =>
      rw [own] at grows
      have known := grows.names name _ (cellOf_known machine name)
      rw [known]
      exact ⟨rfl, _, rfl⟩

theorem linkAllTo_linkAll {resolve : String → Option Cell} {last : Machine}
    {expressions : List SourceExpr}
    (each : ∀ expression ∈ expressions, ∀ machine,
      Grows (linkExpr resolve expression machine).2 last →
        LinksTo resolve last expression (linkExpr resolve expression machine).1)
    (machine : Machine) (grows : Grows (linkAll resolve expressions machine).2 last) :
    LinkAllTo resolve last expressions (linkAll resolve expressions machine).1 := by
  induction expressions generalizing machine with
  | nil => exact ⟨fun _ => rfl, fun _ impossible => nomatch impossible⟩
  | cons first others ih =>
      rcases List.forall_mem_cons.mp each with ⟨head, tail⟩
      have front := head machine ((grows_linkAll resolve others _).trans grows)
      have back := ih tail _ grows
      refine ⟨fun text' => ?_, List.forall_mem_append.mpr ⟨front.known, back.known⟩⟩
      exact congrArg₂ List.cons (front.relabeled text') (back.relabeled text')

/-- Of the names that the caller does not resolve, different ones denote different cells. -/
theorem Separated.eq_of_denoted {resolve : String → Option Cell} {machine : Machine}
    (separated : machine.Separated) {first second : String} (one : resolve first = none)
    (two : resolve second = none) (knowsFirst : Knows resolve machine first)
    (knowsSecond : Knows resolve machine second)
    (same : denoted resolve machine first = denoted resolve machine second) : first = second := by
  rcases knowsFirst with ⟨cell, known⟩
  rcases knowsSecond with ⟨other, knownToo⟩
  rw [denoted, denoted, known, knownToo] at same
  rw [one] at known
  rw [two] at knownToo
  exact separated.apart first second cell known (knownToo.trans (congrArg some same.symm))

end Machine
end EffectHost

import EffectHost.Proofs.Code.Readers

/-!
# How far the readers look

A reader looks at the tokens that it reads and at the first one behind them, and at nothing else.
So what it reads, or why it stops, is settled by these: whatever follows, it does the same.

The readers of the language are put together from a few ways to read on, and it is enough that
each of these keeps to the rule.
-/

namespace EffectHost
namespace Code

/-! ## The first token -/

section First

variable {tokens other : List Token}

theorem head?_append_congr {read rest : List Token} (same : other.head? = rest.head?) :
    (read ++ other).head? = (read ++ rest).head? := by
  rw [List.head?_append, List.head?_append, same]

/-- The first token decides whether a symbol comes first. -/
theorem takeSymbol?_eq_none_of_head? {symbol : Symbol}
    (missing : takeSymbol? symbol tokens = none) (head : other.head? = tokens.head?) :
    takeSymbol? symbol other = none := by
  cases found : takeSymbol? symbol other with
  | none => rfl
  | some behind =>
      rcases takeSymbol?_eq_some_iff.mp found with ⟨line, rfl⟩
      rcases List.head?_eq_some_iff.mp head.symm with ⟨more, rfl⟩
      rw [takeSymbol?_eq_some_iff.mpr ⟨line, rfl⟩] at missing
      cases missing

theorem takeOperator?_eq_none_of_head? {level : Level}
    (missing : level.takeOperator? tokens = none) (head : other.head? = tokens.head?) :
    level.takeOperator? other = none := by
  cases found : level.takeOperator? other with
  | none => rfl
  | some taken =>
      rcases takeOperator?_eq_some_iff.mp found with ⟨symbol, line, stands, rfl⟩
      rcases List.head?_eq_some_iff.mp head.symm with ⟨more, rfl⟩
      rw [takeOperator?_eq_some_iff.mpr ⟨symbol, line, stands, rfl⟩] at missing
      cases missing

end First

/-! ## Settled readers -/

namespace Reader

variable {α β : Type}

/-- The reader reads a value from some of the tokens, or stops behind them; and it does the same
whatever tokens follow behind the next one. -/
def Settled (reader : Reader α) (tokens : List Token) : Prop :=
  ∃ read rest result, tokens = read ++ rest ∧
    ∀ other, other.head? = rest.head? → reader (read ++ other) = Stop.at result other

section Settled

variable {tokens : List Token} {reader : Reader α}

theorem settled_at (result : Except Cause α) (tokens : List Token) :
    Settled (Stop.at result) tokens :=
  ⟨[], tokens, result, rfl, fun _ _ => rfl⟩

theorem Settled.andThen {next : α → Reader β} (first : Settled reader tokens)
    (second : ∀ value rest, reader tokens = .ok (value, rest) → Settled (next value) rest) :
    Settled (reader.andThen next) tokens := by
  rcases first with ⟨read, rest, result, rfl, same⟩
  cases result with
  | error cause =>
      refine ⟨read, rest, .error cause, rfl, ?_⟩
      intro other head
      rw [Reader.andThen, same other head]
      rfl
  | ok value =>
      rcases second value rest (same rest rfl) with ⟨read', rest', result, rfl, same'⟩
      refine ⟨read ++ read', rest', result, (List.append_assoc _ _ _).symm, ?_⟩
      intro other head
      rw [Reader.andThen, List.append_assoc, same (read' ++ other) (head?_append_congr head)]
      exact same' other head

theorem Settled.length_le {value : α} {rest : List Token} (settled : Settled reader tokens)
    (outcome : reader tokens = .ok (value, rest)) : rest.length ≤ tokens.length := by
  rcases settled with ⟨read, behind, result, rfl, same⟩
  rw [same behind rfl] at outcome
  cases result with
  | error cause => cases outcome
  | ok other =>
      cases outcome
      rw [List.length_append]
      omega

/-- Where the first token alone decides how to go on, it decides the same again. -/
theorem Settled.of_head? {chosen : Reader α} (settled : Settled chosen tokens)
    (chooses : ∀ other, other.head? = tokens.head? → reader other = chosen other) :
    Settled reader tokens := by
  rcases settled with ⟨read, rest, result, rfl, same⟩
  refine ⟨read, rest, result, rfl, ?_⟩
  intro other head
  rw [chooses (read ++ other) (head?_append_congr head), same other head]

/-- A token is read and dropped. -/
theorem Settled.behind {token : Token} {next : Reader α} (settled : Settled next tokens)
    (drops : ∀ other, reader (token :: other) = next other) : Settled reader (token :: tokens) := by
  rcases settled with ⟨read, rest, result, rfl, same⟩
  refine ⟨token :: read, rest, result, rfl, ?_⟩
  intro other head
  rw [List.cons_append, drops, same other head]

theorem Settled.onSymbol {symbol : Symbol} {taken missing : Reader α}
    (here : ∀ behind, takeSymbol? symbol tokens = some behind → Settled taken behind)
    (other : takeSymbol? symbol tokens = none → Settled missing tokens) :
    Settled (Reader.onSymbol symbol taken missing) tokens := by
  cases found : takeSymbol? symbol tokens with
  | some behind =>
      have settled := here behind found
      rcases takeSymbol?_eq_some_iff.mp found with ⟨line, rfl⟩
      apply settled.behind
      intro other
      exact onSymbol_of_some (takeSymbol?_eq_some_iff.mpr ⟨line, rfl⟩)
  | none =>
      apply (other found).of_head?
      intro more head
      exact onSymbol_of_none (takeSymbol?_eq_none_of_head? found head)

theorem Settled.onOperator {level : Level} {taken : BinaryOp → Reader α} {missing : Reader α}
    (here : ∀ op behind, level.takeOperator? tokens = some (op, behind) → Settled (taken op) behind)
    (other : level.takeOperator? tokens = none → Settled missing tokens) :
    Settled (Reader.onOperator level taken missing) tokens := by
  cases found : level.takeOperator? tokens with
  | some read =>
      have settled := here read.1 read.2 found
      rcases takeOperator?_eq_some_iff.mp found with ⟨symbol, line, stands, rfl⟩
      apply settled.behind
      intro other
      exact onOperator_of_some (takeOperator?_eq_some_iff.mpr ⟨symbol, line, stands, rfl⟩)
  | none =>
      apply (other found).of_head?
      intro more head
      exact onOperator_of_none (takeOperator?_eq_none_of_head? found head)

end Settled

/-! ## The readers of the language -/

theorem settled_symbol (expected : Symbol) (tokens : List Token) :
    Settled (symbol expected) tokens := by
  rw [symbol_eq]
  apply Settled.onSymbol
  · exact fun behind _ => settled_at _ behind
  · exact fun _ => settled_at _ tokens

theorem settled_assignment (target value : SourceExpr) (tokens : List Token) :
    Settled (assignment target value) tokens := by
  unfold assignment
  split <;> exact settled_at _ tokens

mutual

theorem settled_expression (tokens : List Token) : Settled expression tokens := by
  rw [expression_eq]
  apply (settled_chain .comparison tokens).andThen
  intro left rest first
  have shorter := Parsed.length_lt_of_outcome first
  apply Settled.onSymbol
  · intro behind becomes
    have less := length_lt_of_takeSymbol? becomes
    apply (settled_expression behind).andThen
    exact fun right after _ => settled_assignment left right after
  · exact fun _ => settled_at _ rest
termination_by 10 * tokens.length + 8
decreasing_by
  · simp only [Level.rank]
    omega
  · omega

theorem settled_chain (level : Level) (tokens : List Token) : Settled (chain level) tokens := by
  rw [chain_eq]
  apply (settled_operand level tokens).andThen
  intro left rest first
  have shorter := Parsed.length_lt_of_outcome first
  exact settled_chainBehind level left rest
termination_by 10 * tokens.length + 2 * level.rank + 1

theorem settled_chainBehind (level : Level) (left : SourceExpr) (tokens : List Token) :
    Settled (chainBehind level left) tokens := by
  rw [chainBehind_eq]
  apply Settled.onOperator
  · intro op behind continues
    have less : behind.length < tokens.length := Level.length_lt_of_takeOperator? continues
    have rank := level.rank_le
    apply (settled_operand level behind).andThen
    intro right rest next
    have shorter := Parsed.length_lt_of_outcome next
    exact settled_chainBehind level (.binary op left right) rest
  · exact fun _ => settled_at _ tokens
termination_by 10 * tokens.length

theorem settled_operand (level : Level) (tokens : List Token) :
    Settled (operand level) tokens := by
  rw [operand_eq]
  cases level with
  | comparison => exact settled_chain .sum tokens
  | sum => exact settled_chain .product tokens
  | product => exact settled_negation tokens
termination_by 10 * tokens.length + 2 * level.rank
decreasing_by all_goals
  simp only [Level.rank]
  omega

theorem settled_negation (tokens : List Token) : Settled negation tokens := by
  rw [negation_eq]
  apply Settled.onSymbol
  · intro behind minus
    have less := length_lt_of_takeSymbol? minus
    apply (settled_negation behind).andThen
    exact fun inner rest _ => settled_at _ rest
  · intro _
    apply (settled_primary tokens).andThen
    intro base rest first
    have shorter := Parsed.length_lt_of_outcome first
    exact settled_indices base rest
termination_by 10 * tokens.length + 1

theorem settled_indices (base : SourceExpr) (tokens : List Token) :
    Settled (indices base) tokens := by
  rw [indices_eq]
  apply Settled.onSymbol
  · intro behind opens
    have less := length_lt_of_takeSymbol? opens
    apply (settled_expression behind).andThen
    intro index rest inner
    have shorter := Parsed.length_lt_of_outcome inner
    apply (settled_symbol .closeBracket rest).andThen
    intro _ after closes
    have below := Parsed.length_lt_of_outcome closes
    exact settled_indices (.item base index) after
  · exact fun _ => settled_at _ tokens
termination_by 10 * tokens.length

theorem settled_primary (tokens : List Token) : Settled primary tokens := by
  match tokens with
  | [] =>
      apply (settled_at (.error .endOfCode) []).of_head?
      intro other head
      cases List.head?_eq_none_iff.mp head
      rw [primary, Code.primary]
      rfl
  | ⟨.number value, line⟩ :: rest =>
      apply (settled_at (.ok (.number value)) rest).behind
      intro other
      rw [primary, Code.primary]
      rfl
  | ⟨.text content, line⟩ :: rest =>
      apply (settled_at (.ok (.text content)) rest).behind
      intro other
      rw [primary, Code.primary]
      rfl
  | ⟨.name name, line⟩ :: rest =>
      refine Settled.behind ?_ (primary_name_eq name line)
      apply Settled.onSymbol
      · intro behind opens
        have less := length_lt_of_takeSymbol? opens
        apply Settled.onSymbol
        · exact fun after _ => settled_at _ after
        · intro _
          apply (settled_arguments [] behind).andThen
          exact fun all after _ => settled_at _ after
      · exact fun _ => settled_at _ rest
  | ⟨.symbol symbol, line⟩ :: rest =>
      by_cases opens : symbol = .openParen
      · cases opens
        refine Settled.behind ?_ (primary_openParen_eq line)
        apply (settled_expression rest).andThen
        intro inner behind _
        apply (settled_symbol .closeParen behind).andThen
        exact fun _ after _ => settled_at _ after
      · apply (settled_at (.error (.unexpected symbol)) (⟨.symbol symbol, line⟩ :: rest)).of_head?
        intro other head
        rcases List.head?_eq_some_iff.mp head with ⟨more, rfl⟩
        exact primary_symbol_eq opens line more
termination_by 10 * tokens.length

theorem settled_arguments (done : List SourceExpr) (tokens : List Token) :
    Settled (arguments done) tokens := by
  rw [arguments_eq]
  apply (settled_expression tokens).andThen
  intro next rest first
  have shorter := Parsed.length_lt_of_outcome first
  apply Settled.onSymbol
  · exact fun behind _ => settled_at _ behind
  · intro _
    apply (settled_symbol .comma rest).andThen
    intro _ after continues
    have less := Parsed.length_lt_of_outcome continues
    exact settled_arguments (next :: done) after
termination_by 10 * tokens.length + 9

end

theorem settled_ended (next : SourceExpr) (tokens : List Token) :
    Settled (ended next) tokens := by
  cases tokens with
  | nil =>
      apply (settled_at (.ok next) []).of_head?
      intro other head
      cases List.head?_eq_none_iff.mp head
      rfl
  | cons token tokens =>
      have separated : Settled ((symbol .semicolon).andThen fun _ => give next) (token :: tokens) :=
        (settled_symbol .semicolon _).andThen fun _ rest _ => settled_at _ rest
      apply separated.of_head?
      intro other head
      rcases List.head?_eq_some_iff.mp head with ⟨more, rfl⟩
      exact ended_cons token

theorem settled_statement (tokens : List Token) : Settled statement tokens :=
  (settled_expression tokens).andThen fun next rest _ => settled_ended next rest

theorem length_lt_of_statement {tokens rest : List Token} {next : SourceExpr}
    (read : statement tokens = .ok (next, rest)) : rest.length < tokens.length := by
  cases first : expression tokens with
  | error stop =>
      rw [statement, andThen, first] at read
      cases read
  | ok outcome =>
      have shorter := Parsed.length_lt_of_outcome first
      rw [statement_of_ok first] at read
      have notLonger := (settled_ended outcome.1 outcome.2).length_le read
      omega

end Reader

open Reader (settled_statement length_lt_of_statement)

/-! ## Programs -/

/-- Where a program is refused, the tokens read and the next one are to blame: whatever stands
behind them, it is refused there, and for the same cause. -/
theorem statementsBehind_eq_error {done : List SourceExpr} {tokens : List Token} {stop : Stop}
    (failed : statementsBehind done tokens = .error stop) :
    ∃ read, tokens = read ++ stop.unread ∧ ∀ other, other.head? = stop.unread.head? →
      statementsBehind done (read ++ other) = .error ⟨stop.cause, other⟩ := by
  -- By the length of the tokens: a semicolon or a statement takes at least one of them.
  induction size : tokens.length using Nat.strongRecOn generalizing done tokens with
  | ind length ih =>
      cases tokens with
      | nil =>
          rw [statementsBehind] at failed
          cases failed
      | cons token tokens =>
          cases begins : takeSymbol? .semicolon (token :: tokens) with
          | some behind =>
              have less := length_lt_of_takeSymbol? begins
              rw [statementsBehind_of_semicolon begins] at failed
              rcases ih behind.length (size ▸ less) failed rfl with ⟨read, rfl, same⟩
              rcases takeSymbol?_eq_some_iff.mp begins with ⟨line, shape⟩
              refine ⟨⟨.symbol .semicolon, line⟩ :: read, shape, ?_⟩
              intro other head
              have again : takeSymbol? .semicolon (⟨.symbol .semicolon, line⟩ :: (read ++ other)) =
                  some (read ++ other) := takeSymbol?_eq_some_iff.mpr ⟨line, rfl⟩
              rw [List.cons_append, statementsBehind_of_semicolon again]
              exact same other head
          | none =>
              rw [statementsBehind_of_statement begins] at failed
              rcases settled_statement (token :: tokens) with ⟨read, rest, result, whole, settled⟩
              have again (other : List Token) (head : other.head? = rest.head?) :
                  statementsBehind done (read ++ other) = (Stop.at result other).bind
                    fun read => statementsBehind (read.1 :: done) read.2 := by
                have first : (read ++ other).head? = (token :: tokens).head? := by
                  rw [whole]
                  exact head?_append_congr head
                have none := takeSymbol?_eq_none_of_head? begins first
                rcases List.head?_eq_some_iff.mp first with ⟨more, shape⟩
                rw [← settled other head]
                rw [shape] at none ⊢
                exact statementsBehind_of_statement none
              have here := settled rest rfl
              rw [← whole] at here
              rw [here] at failed
              cases result with
              | error cause =>
                  cases failed
                  exact ⟨read, whole, again⟩
              | ok next =>
                  have shorter := length_lt_of_statement here
                  rcases ih rest.length (size ▸ shorter) failed rfl with ⟨read', rfl, same⟩
                  refine ⟨read ++ read', by rw [whole, List.append_assoc], ?_⟩
                  intro other head
                  rw [List.append_assoc, again _ (head?_append_congr head)]
                  exact same other head

/-- A program is refused for a cause at the token behind those that were read, or at its end if
there is none.  What follows that token does not matter; and with something else in its place
the program is not refused at any of the tokens before it. -/
structure RefusedBehind (read : List Token) (next : Option Token) (cause : Cause) : Prop where
  here : ∀ other, other.head? = next → program (read ++ other) = .error ⟨cause, other⟩
  notBefore : ∀ other stop, program (read ++ other) = .error stop → stop.unread <:+ other

theorem refusedBehind_of_program {tokens : List Token} {stop : Stop}
    (failed : program tokens = .error stop) :
    ∃ read, tokens = read ++ stop.unread ∧ RefusedBehind read stop.unread.head? stop.cause := by
  rcases statementsBehind_eq_error failed with ⟨read, rfl, same⟩
  refine ⟨read, rfl, same, ?_⟩
  intro other earlier failedEarlier
  rcases statementsBehind_eq_error failedEarlier with ⟨read', whole, same'⟩
  rcases List.append_eq_append_iff.mp whole with ⟨more, rfl, back⟩ | ⟨more, rfl, back⟩
  · exact ⟨more, back.symm⟩
  · -- What is refused in front of the last tokens read is refused there whatever follows.
    cases more with
    | nil => exact back ▸ List.suffix_rfl
    | cons token more =>
        have again := same' (token :: more ++ stop.unread) (back ▸ rfl)
        rw [← List.append_assoc] at again
        have here := (same stop.unread rfl).symm.trans again
        have longer : stop.unread = token :: more ++ stop.unread :=
          congrArg Stop.unread (Except.error.inj here)
        exact absurd (List.self_eq_append_left.mp longer) (List.cons_ne_nil token more)

end Code
end EffectHost

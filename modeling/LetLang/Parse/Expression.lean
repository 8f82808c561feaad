import LetLang.Parse.State

/-
  Parsing expressions by the binding levels of operators.

  An expression is an operand followed by operators that
  bind more tightly than a given level, each with a right
  operand that is parsed at the operator's own level. So an
  operator of the same level is left to the loop, and chains
  of one level lean to the left.

  Where an operand fails, the operator that has called for
  it records the error and raises its own from it. So all
  errors but the last are in the log by the time at which
  the expression fails.

  Key definitions include:
    * `Parse.State.expression`
    * `Parse.State.operand`
    * `Parse.State.climb`

  Main declarations:
    * `Parse.State.expression_eq`
    * `Parse.State.operand_eq`
    * `Parse.State.climb_eq`
-/

namespace LetLang

namespace Parse

namespace State

------------------------------------------------------------
-- The Parser
------------------------------------------------------------

/- An operand of one token; its error has no cause. -/
def leaf
    (state : State)
    (token : Token) : Reply Expr :=
  ((Parse.leaf token).mapFailure
    (fun failure => Diagnostic.root failure.obstacle.error),
    state)

/-
  A reply to a state, which leaves no more tokens than there
  were.
-/
structure Bounded
    (state : State) where
  reply : Reply Expr
  length_le :
    reply.2.stream.rest.length ≤ state.stream.rest.length

mutual

/- An expression above a level, with its bound. -/
def expressionBounded
    (state : State)
    (floor : Level) : Bounded state :=
  match _hCurrent : state.stream.current with
  | none =>
      ⟨(.failed (Diagnostic.root .missingToken), state),
        Nat.le_refl _⟩
  | some token =>
      match operandBounded state.advance token with
      | ⟨(.done left, after), hAfter⟩ =>
          let climbed := climbBounded after floor left
          ⟨climbed.reply,
            Nat.le_trans climbed.length_le
              (Nat.le_trans hAfter state.length_advance_le)⟩
      | ⟨(.failed raised, after), hAfter⟩ =>
          ⟨(.failed raised, after),
            Nat.le_trans hAfter state.length_advance_le⟩
      | ⟨(.fatal fault, after), hAfter⟩ =>
          ⟨(.fatal fault, after),
            Nat.le_trans hAfter state.length_advance_le⟩
termination_by 3 * state.stream.rest.length + 2
decreasing_by
  · split
    · rename_i hUnary
      have hKind : token.kind ≠ .eof := by
        intro hEof
        simp [hEof, isUnary] at hUnary
      have hLess :
          state.advance.stream.rest.length <
            state.stream.rest.length :=
        TokenStream.length_advance_lt _hCurrent hKind
      omega
    · omega
  · have hLess := state.length_advance_le
    simp only at hAfter
    omega

/-
  An operand that starts with a given token, which has been
  passed already.
-/
def operandBounded
    (state : State)
    (token : Token) : Bounded state :=
  if _hUnary : isUnary token.kind then
    match expressionBounded state .unary with
    | ⟨(.done right, after), hAfter⟩ =>
        ⟨(.done (.prefixOp token right), after), hAfter⟩
    | ⟨(.failed raised, after), hAfter⟩ =>
        ⟨Reply.raising (.operandFailed .unary)
            (.failed raised, after),
          hAfter⟩
    | ⟨(.fatal fault, after), hAfter⟩ =>
        ⟨(.fatal fault, after), hAfter⟩
  else
    ⟨state.leaf token, Nat.le_refl _⟩
termination_by
  if isUnary token.kind then
    3 * state.stream.rest.length + 3
  else
    1
decreasing_by
  simp [_hUnary]

/- The operators above a level after a left operand. -/
def climbBounded
    (state : State)
    (floor : Level)
    (left : Expr) : Bounded state :=
  match hCurrent : state.stream.current with
  | none => ⟨(.done left, state), Nat.le_refl _⟩
  | some token =>
      match hLevel : token.kind.level? with
      | none => ⟨(.done left, state), Nat.le_refl _⟩
      | some level =>
          have hShorter :
              state.advance.stream.rest.length <
                state.stream.rest.length :=
            TokenStream.length_advance_lt hCurrent
              (fun hEof => by
                simp [hEof, Token.Kind.level?] at hLevel)
          if floor < level then
            match expressionBounded state.advance level with
            | ⟨(.done right, after), hAfter⟩ =>
                let climbed :=
                  climbBounded after floor
                    (.infixOp token left right)
                ⟨climbed.reply,
                  Nat.le_trans climbed.length_le
                    (Nat.le_trans hAfter
                      (Nat.le_of_lt hShorter))⟩
            | ⟨(.failed raised, after), hAfter⟩ =>
                ⟨Reply.raising (.operandFailed .binary)
                    (.failed raised, after),
                  Nat.le_trans hAfter
                    (Nat.le_of_lt hShorter)⟩
            | ⟨(.fatal fault, after), hAfter⟩ =>
                ⟨(.fatal fault, after),
                  Nat.le_trans hAfter
                    (Nat.le_of_lt hShorter)⟩
          else
            ⟨(.done left, state), Nat.le_refl _⟩
termination_by 3 * state.stream.rest.length + 1
decreasing_by
  · omega
  · simp only at hAfter
    omega

end

------------------------------------------------------------
-- Replies
------------------------------------------------------------

/-
  Parse an expression whose operators all bind more tightly
  than a level.
-/
def expression
    (state : State)
    (floor : Level) : Reply Expr :=
  (state.expressionBounded floor).reply

/- Parse an operand after its first token. -/
def operand
    (state : State)
    (token : Token) : Reply Expr :=
  (state.operandBounded token).reply

/- Parse the operators above a level after a left operand. -/
def climb
    (state : State)
    (floor : Level)
    (left : Expr) : Reply Expr :=
  (state.climbBounded floor left).reply

------------------------------------------------------------
-- Equations
------------------------------------------------------------

/-
  An expression needs a token, which is passed before
  anything else; then come its operand and its operators.
-/
theorem expression_eq
    (state : State)
    (floor : Level) :
    state.expression floor =
      match state.stream.current with
      | none =>
          (.failed (Diagnostic.root .missingToken), state)
      | some token =>
          Reply.andThen (state.advance.operand token)
            (fun left after => after.climb floor left) := by
  unfold expression operand
  rw [expressionBounded]
  split
  · rename_i h
    rw [h]
  · rename_i token h
    rw [h]
    split <;> rename_i hOperand <;>
      simp [hOperand, Reply.andThen, climb]

/-
  An operand is an operator with an operand that is parsed
  at the level of such operators, or a single token. If the
  former fails, its error is recorded below the operator's.
-/
theorem operand_eq
    (state : State)
    (token : Token) :
    state.operand token =
      if isUnary token.kind then
        Reply.andThen
          (Reply.raising (.operandFailed .unary)
            (state.expression .unary))
          (fun right after =>
            (.done (.prefixOp token right), after))
      else
        state.leaf token := by
  unfold operand expression
  rw [operandBounded]
  split
  · split <;> rename_i hRight <;>
      simp [hRight, Reply.raising, Reply.andThen]
  · rfl

/-
  The loop goes on while the current token is an operator
  above the level; its right operand is parsed at the
  operator's own level.
-/
theorem climb_eq
    (state : State)
    (floor : Level)
    (left : Expr) :
    state.climb floor left =
      match state.stream.current with
      | none => (.done left, state)
      | some token =>
          match token.kind.level? with
          | none => (.done left, state)
          | some level =>
              if floor < level then
                Reply.andThen
                  (Reply.raising (.operandFailed .binary)
                    (state.advance.expression level))
                  (fun right after =>
                    after.climb floor
                      (.infixOp token left right))
              else
                (.done left, state) := by
  unfold climb expression
  rw [climbBounded]
  split
  · rename_i h
    rw [h]
  · rename_i token h
    simp only [h]
    split
    · rename_i hLevel
      simp [hLevel]
    · rename_i level hLevel
      simp only [hLevel]
      split
      · split <;> rename_i hRight <;>
          simp [hRight, Reply.raising, Reply.andThen]
      · rfl

theorem length_expression_le
    (state : State)
    (floor : Level) :
    (state.expression floor).2.stream.rest.length ≤
      state.stream.rest.length :=
  (state.expressionBounded floor).length_le

end State

end Parse

end LetLang

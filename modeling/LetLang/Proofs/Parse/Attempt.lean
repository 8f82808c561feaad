import LetLang.Parse.Operand
import LetLang.Parse.Stream

/-
  Attempts at expressions, without a log.

  What an expression comes to, and how far the stream is
  taken, does not depend on what has been recorded. So it is
  told here by functions of the stream alone. They go the
  same way as the parser does; only where the parser records
  an error and raises another one from it, they note that an
  operator was waiting for its operand.

  Key definitions include:
    * `Parse.expression`
    * `Parse.operand`
    * `Parse.climb`

  Main declarations:
    * `Parse.expression_eq`
    * `Parse.operand_eq`
    * `Parse.climb_eq`
-/

namespace LetLang

namespace Parse

------------------------------------------------------------
-- Attempts
------------------------------------------------------------

/-
  An attempt on a stream, which leaves no more tokens than
  there were.
-/
structure Bounded
    (stream : TokenStream) where
  attempt : Attempt
  after : TokenStream
  length_le : after.rest.length ≤ stream.rest.length

mutual

/- An expression above a level, with its bound. -/
def expressionBounded
    (floor : Level)
    (stream : TokenStream) : Bounded stream :=
  match _hCurrent : stream.current with
  | none => ⟨.failed ⟨.missing, []⟩, stream, Nat.le_refl _⟩
  | some token =>
      match operandBounded token stream.advance with
      | ⟨.done left, after, hAfter⟩ =>
          let climbed := climbBounded floor left after
          ⟨climbed.attempt, climbed.after,
            Nat.le_trans climbed.length_le
              (Nat.le_trans hAfter
                stream.length_advance_le)⟩
      | ⟨.failed failure, after, hAfter⟩ =>
          ⟨.failed failure, after,
            Nat.le_trans hAfter stream.length_advance_le⟩
      | ⟨.fatal fault, after, hAfter⟩ =>
          ⟨.fatal fault, after,
            Nat.le_trans hAfter stream.length_advance_le⟩
termination_by 3 * stream.rest.length + 2
decreasing_by
  · split
    · rename_i hUnary
      have hKind : token.kind ≠ .eof := by
        intro hEof
        simp [hEof, isUnary] at hUnary
      have := TokenStream.length_advance_lt _hCurrent hKind
      omega
    · omega
  · have := stream.length_advance_le
    omega

/-
  An operand that starts with a given token, which has been
  passed already.
-/
def operandBounded
    (token : Token)
    (stream : TokenStream) : Bounded stream :=
  if _hUnary : isUnary token.kind then
    match expressionBounded .unary stream with
    | ⟨.done right, after, hAfter⟩ =>
        ⟨.done (.prefixOp token right), after, hAfter⟩
    | ⟨.failed failure, after, hAfter⟩ =>
        ⟨.failed (failure.under .unary), after, hAfter⟩
    | ⟨.fatal fault, after, hAfter⟩ =>
        ⟨.fatal fault, after, hAfter⟩
  else
    ⟨leaf token, stream, Nat.le_refl _⟩
termination_by
  if isUnary token.kind then 3 * stream.rest.length + 3
  else 1
decreasing_by
  simp [_hUnary]

/- The operators above a level after a left operand. -/
def climbBounded
    (floor : Level)
    (left : Expr)
    (stream : TokenStream) : Bounded stream :=
  match hCurrent : stream.current with
  | none => ⟨.done left, stream, Nat.le_refl _⟩
  | some token =>
      match hLevel : token.kind.level? with
      | none => ⟨.done left, stream, Nat.le_refl _⟩
      | some level =>
          have hShorter :
              stream.advance.rest.length <
                stream.rest.length :=
            TokenStream.length_advance_lt hCurrent
              (fun hEof => by
                simp [hEof, Token.Kind.level?] at hLevel)
          if floor < level then
            match expressionBounded level stream.advance with
            | ⟨.done right, after, hAfter⟩ =>
                let climbed :=
                  climbBounded floor
                    (.infixOp token left right) after
                ⟨climbed.attempt, climbed.after,
                  Nat.le_trans climbed.length_le
                    (Nat.le_trans hAfter
                      (Nat.le_of_lt hShorter))⟩
            | ⟨.failed failure, after, hAfter⟩ =>
                ⟨.failed (failure.under .binary), after,
                  Nat.le_trans hAfter
                    (Nat.le_of_lt hShorter)⟩
            | ⟨.fatal fault, after, hAfter⟩ =>
                ⟨.fatal fault, after,
                  Nat.le_trans hAfter
                    (Nat.le_of_lt hShorter)⟩
          else
            ⟨.done left, stream, Nat.le_refl _⟩
termination_by 3 * stream.rest.length + 1

end

------------------------------------------------------------
-- Results
------------------------------------------------------------

/- What came of an attempt and the stream after it. -/
def Bounded.result
    {stream : TokenStream}
    (bounded : Bounded stream) : Attempt × TokenStream :=
  (bounded.attempt, bounded.after)

/-
  Parse an expression whose operators all bind more tightly
  than a level.
-/
def expression
    (floor : Level)
    (stream : TokenStream) : Attempt × TokenStream :=
  (expressionBounded floor stream).result

/- Parse an operand after its first token. -/
def operand
    (token : Token)
    (stream : TokenStream) : Attempt × TokenStream :=
  (operandBounded token stream).result

/- Parse the operators above a level after a left operand. -/
def climb
    (floor : Level)
    (left : Expr)
    (stream : TokenStream) : Attempt × TokenStream :=
  (climbBounded floor left stream).result

------------------------------------------------------------
-- Equations
------------------------------------------------------------

/- Carry on after a result; a failure or fault stands. -/
def andThen
    (attempted : Attempt × TokenStream)
    (next : Expr → TokenStream → Attempt × TokenStream) :
    Attempt × TokenStream :=
  match attempted with
  | (.done result, after) => next result after
  | (.failed failure, after) => (.failed failure, after)
  | (.fatal fault, after) => (.fatal fault, after)

/- Note that an attempt was made for an operator. -/
def under
    (form : OperatorForm)
    (attempted : Attempt × TokenStream) :
    Attempt × TokenStream :=
  (attempted.1.mapFailure (fun failure =>
    failure.under form), attempted.2)

/-
  An expression needs a token, which is passed before
  anything else; then come its operand and its operators.
-/
theorem expression_eq
    (floor : Level)
    (stream : TokenStream) :
    expression floor stream =
      match stream.current with
      | none => (.failed ⟨.missing, []⟩, stream)
      | some token =>
          andThen (operand token stream.advance)
            (climb floor) := by
  unfold expression operand
  rw [expressionBounded]
  split
  · rename_i h
    simp [h, Bounded.result]
  · rename_i token h
    rw [h]
    split <;> rename_i hOperand <;>
      simp [hOperand, Bounded.result, andThen, climb]

/-
  An operand is an operator with an operand that is parsed
  at the level of such operators, or a single token.
-/
theorem operand_eq
    (token : Token)
    (stream : TokenStream) :
    operand token stream =
      if isUnary token.kind then
        andThen (under .unary (expression .unary stream))
          (fun right after =>
            (.done (.prefixOp token right), after))
      else
        (leaf token, stream) := by
  unfold operand expression
  rw [operandBounded]
  split
  · split <;> rename_i hRight <;>
      simp [hRight, Bounded.result, under, andThen,
        Outcome.mapFailure]
  · rfl

/-
  The loop goes on while the current token is an operator
  above the level; its right operand is parsed at the
  operator's own level.
-/
theorem climb_eq
    (floor : Level)
    (left : Expr)
    (stream : TokenStream) :
    climb floor left stream =
      match stream.current with
      | none => (.done left, stream)
      | some token =>
          match token.kind.level? with
          | none => (.done left, stream)
          | some level =>
              if floor < level then
                andThen
                  (under .binary
                    (expression level stream.advance))
                  (fun right after =>
                    climb floor
                      (.infixOp token left right) after)
              else
                (.done left, stream) := by
  unfold climb expression
  rw [climbBounded]
  split
  · rename_i h
    simp [h, Bounded.result]
  · rename_i token h
    simp only [h]
    split
    · rename_i hLevel
      simp [hLevel, Bounded.result]
    · rename_i level hLevel
      simp only [hLevel]
      split
      · split <;> rename_i hRight <;>
          simp [hRight, Bounded.result, under, andThen,
            Outcome.mapFailure]
      · rfl

theorem length_expression_le
    (floor : Level)
    (stream : TokenStream) :
    (expression floor stream).2.rest.length ≤
      stream.rest.length :=
  (expressionBounded floor stream).length_le

end Parse

end LetLang

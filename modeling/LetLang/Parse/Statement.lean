import LetLang.Parse.Expression

/-
  Parsing statements.

  A binding is `let <name> = <value>`, a result is
  `return <value>`, and anything else is an expression with
  an optional semicolon after it. A rule leaves the last
  token of its statement behind it only for expressions with
  a semicolon; the token that follows any other statement is
  for the caller to pass.

  Key definitions include:
    * `Parse.failStatement`
    * `Parse.binding`
    * `Parse.result`
    * `Parse.bareExpression`
    * `Parse.statement`

  Main declarations:
    * `Parse.length_statement_le`
-/

namespace LetLang

namespace Parse

------------------------------------------------------------
-- Rules
------------------------------------------------------------

/-
  Inside a statement the error of an expression is recorded,
  and the failure of the statement cites it.
-/
def failStatement
    (form : StatementForm) : Reply Expr → Reply Expr :=
  Reply.raising (.statementFailed form)

theorem stream_failStatement
    (form : StatementForm)
    (reply : Reply Expr) :
    (failStatement form reply).2.stream =
      reply.2.stream :=
  Reply.stream_raising _ reply

/- A parse of a value inside a statement of some form. -/
def value
    (form : StatementForm)
    (make : Expr → Stmt)
    (state : State) : Reply Stmt :=
  let (outcome, after) :=
    failStatement form (state.expression .lowest)
  (outcome.map make, after)

/- A binding that lacks a token of a kind. -/
def incompleteBinding
    (state : State)
    (expected : Token.Kind)
    (found : Option Token) : Reply Stmt :=
  (.failed (Diagnostic.root (.statementFailed .binding)),
    state.recordUnexpected expected found)

/-
  A binding. The name is checked before the current token is
  taken and passed, the sign of assignment after the name
  was passed.
-/
def binding
    (state : State) : Reply Stmt :=
  match state.stream.peek with
  | none => incompleteBinding state .ident none
  | some name =>
      if name.kind = .ident then
        match state.stream.current with
        | none =>
            (.failed (Diagnostic.root .missingToken), state)
        | some token =>
            let named := state.advance.advance
            if named.stream.currentIs .assign then
              value .binding (.letStmt token name)
                named.advance
            else
              incompleteBinding named .assign
                named.stream.current
      else
        incompleteBinding state .ident (some name)

/- A result. -/
def result
    (state : State) : Reply Stmt :=
  match state.stream.current with
  | none =>
      (.failed (Diagnostic.root .missingToken), state)
  | some token =>
      value .result (.returnStmt token) state.advance

/- Pass the current token if a semicolon comes after it. -/
def passBeforeSemicolon
    (state : State) : State :=
  if state.stream.peekIs .semicolon then
    state.advance
  else
    state

/- A bare expression; its own first token opens it. -/
def bareExpression
    (state : State) : Reply Stmt :=
  match value .expression
      (fun expr => .exprStmt expr.first expr) state with
  | (.done stmt, after) =>
      (.done stmt, passBeforeSemicolon after)
  | reply => reply

/- A statement of the form that its first token tells. -/
def statement
    (state : State) : Reply Stmt :=
  if state.stream.currentIs .letWord then
    binding state
  else if state.stream.currentIs .returnWord then
    result state
  else
    bareExpression state

------------------------------------------------------------
-- Rules Only Consume
------------------------------------------------------------

theorem length_value_le
    (form : StatementForm)
    (make : Expr → Stmt)
    (state : State) :
    (value form make state).2.stream.rest.length ≤
      state.stream.rest.length := by
  simp only [value, stream_failStatement]
  exact state.length_expression_le .lowest

/- A binding leaves no more tokens. -/
theorem length_binding_le
    (state : State) :
    (binding state).2.stream.rest.length ≤
      state.stream.rest.length := by
  have hOne := state.length_advance_le
  have hTwo := state.advance.length_advance_le
  have hThree := state.advance.advance.length_advance_le
  unfold binding
  split
  · exact Nat.le_refl _
  · split
    · split
      · exact Nat.le_refl _
      · dsimp only
        split
        · exact Nat.le_trans (length_value_le _ _ _)
            (Nat.le_trans hThree (Nat.le_trans hTwo hOne))
        · exact Nat.le_trans hTwo hOne
    · exact Nat.le_refl _

theorem length_result_le
    (state : State) :
    (result state).2.stream.rest.length ≤
      state.stream.rest.length := by
  unfold result
  split
  · exact Nat.le_refl _
  · exact Nat.le_trans (length_value_le _ _ _)
      state.length_advance_le

theorem length_passBeforeSemicolon_le
    (state : State) :
    (passBeforeSemicolon state).stream.rest.length ≤
      state.stream.rest.length := by
  unfold passBeforeSemicolon
  split
  · exact state.length_advance_le
  · exact Nat.le_refl _

theorem length_bareExpression_le
    (state : State) :
    (bareExpression state).2.stream.rest.length ≤
      state.stream.rest.length := by
  have hValue := length_value_le .expression
    (fun expr => .exprStmt expr.first expr) state
  unfold bareExpression
  split
  · rename_i hReply
    rw [hReply] at hValue
    exact Nat.le_trans
      (length_passBeforeSemicolon_le _) hValue
  · exact hValue

/- A statement leaves no more tokens. -/
theorem length_statement_le
    (state : State) :
    (statement state).2.stream.rest.length ≤
      state.stream.rest.length := by
  unfold statement
  split
  · exact length_binding_le state
  · split
    · exact length_result_le state
    · exact length_bareExpression_le state

end Parse

end LetLang

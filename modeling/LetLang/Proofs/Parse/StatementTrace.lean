import LetLang.Parse.Statement
import LetLang.Proofs.Parse.Reads

/-
  Traces of the statement parser: one constructor for every
  way in which an attempt at a statement ends.

  An attempt fails before it comes to an expression, if the
  name or the sign of a binding is missing, or it ends as
  the attempt at its expression does. What stands before the
  expression is the *opening* of the statement.

  Key definitions include:
    * `Stmt.leave`
    * `Parse.Opening`
    * `Parse.StatementTrace`

  Main declarations:
    * `Parse.statement_of_opening`
    * `Parse.statementTrace_iff`
-/

namespace LetLang

namespace TokenStream

theorem currentIs_of_current
    {stream : TokenStream}
    {token : Token}
    (hCurrent : stream.current = some token)
    (kind : Token.Kind) :
    stream.currentIs kind = (token.kind == kind) := by
  simp [currentIs, hCurrent]

/- A kind that is current is the kind of a token. -/
theorem exists_current_of_currentIs
    {stream : TokenStream}
    {kind : Token.Kind}
    (h : stream.currentIs kind = true) :
    ∃ token, stream.current = some token ∧
      token.kind = kind := by
  unfold currentIs at h
  cases hCurrent : stream.current with
  | none =>
      rw [hCurrent] at h
      cases h
  | some token =>
      rw [hCurrent] at h
      refine ⟨token, rfl, ?_⟩
      simpa using h

end TokenStream

namespace Stmt

/- What a rule does behind the tokens of a statement. -/
def leave
    (state : Parse.State) : Stmt → Parse.State
  | .exprStmt _ _ => Parse.passBeforeSemicolon state
  | _ => state

/- The log is none of the business of what is passed. -/
theorem log_leave
    (stmt : Stmt)
    (state : Parse.State) :
    (stmt.leave state).log = state.log := by
  cases stmt with
  | letStmt token name value => rfl
  | returnStmt token value => rfl
  | exprStmt token expr =>
      simp only [leave, Parse.passBeforeSemicolon]
      split <;> rfl

end Stmt

namespace Parse

------------------------------------------------------------
-- Openings
------------------------------------------------------------

/-
  A state stands before a statement of some form. Behind its
  opening the expression starts, of which the statement is
  made.
-/
inductive Opening
    (state : State) :
    StatementForm → (Expr → Stmt) → State → Prop where
  | binding
      {opening name : Token}
      (hOpening : state.stream.current = some opening)
      (hLet : opening.kind = .letWord)
      (hPeek : state.stream.peek = some name)
      (hName : name.kind = .ident)
      (hSign :
        state.advance.advance.stream.currentIs .assign =
          true) :
      Opening state .binding (.letStmt opening name)
        state.advance.advance.advance
  | result
      {opening : Token}
      (hOpening : state.stream.current = some opening)
      (hReturn : opening.kind = .returnWord) :
      Opening state .result (.returnStmt opening)
        state.advance
  | bare
      (hNotLet : state.stream.currentIs .letWord = false)
      (hNotReturn :
        state.stream.currentIs .returnWord = false) :
      Opening state .expression
        (fun expr => .exprStmt expr.first expr) state

theorem Opening.log_eq
    {state start : State}
    {form : StatementForm}
    {make : Expr → Stmt}
    (hOpening : Opening state form make start) :
    start.log = state.log := by
  cases hOpening with
  | binding hOpening hLet hPeek hName hSign => rfl
  | result hOpening hReturn => rfl
  | bare hNotLet hNotReturn => rfl

/- A statement that is done leaves the tokens behind it. -/
def leaveDone : Reply Stmt → Reply Stmt
  | (.done stmt, after) => (.done stmt, stmt.leave after)
  | reply => reply

/- Only behind bare expressions a token is passed. -/
theorem leaveDone_value
    {make : Expr → Stmt}
    (hMake : ∀ expr state, (make expr).leave state = state)
    (form : StatementForm)
    (state : State) :
    leaveDone (value form make state) =
      value form make state := by
  unfold value
  rcases state.expression .lowest
    with ⟨expr | raised | fault, after⟩
  · simp [failStatement, Reply.raising, Outcome.map,
      leaveDone, hMake]
  · rfl
  · rfl

/- A statement that is opened goes on with its value. -/
theorem statement_of_opening
    {state start : State}
    {form : StatementForm}
    {make : Expr → Stmt}
    (h : Opening state form make start) :
    statement state = leaveDone (value form make start) := by
  cases h with
  | @binding opening name hOpening hLet hPeek hName hSign =>
      have hIs : state.stream.currentIs .letWord = true := by
        simp [TokenStream.currentIs, hOpening, hLet]
      rw [leaveDone_value (fun _ _ => rfl)]
      unfold statement
      rw [if_pos hIs]
      unfold binding
      simp only [hPeek, hName, if_true, hOpening, hSign]
  | @result opening hOpening hReturn =>
      have hNotLet :
          state.stream.currentIs .letWord = false := by
        simp [TokenStream.currentIs, hOpening, hReturn]
      have hIs :
          state.stream.currentIs .returnWord = true := by
        simp [TokenStream.currentIs, hOpening, hReturn]
      rw [leaveDone_value (fun _ _ => rfl)]
      unfold statement
      rw [hNotLet, hIs]
      simp only [Bool.false_eq_true, if_false, if_true]
      unfold result
      rw [hOpening]
  | bare hNotLet hNotReturn =>
      unfold statement
      rw [hNotLet, hNotReturn]
      simp only [Bool.false_eq_true, if_false]
      unfold bareExpression value
      rcases state.expression .lowest
        with ⟨expr | raised | fault, after⟩
      · rfl
      · rfl
      · rfl

------------------------------------------------------------
-- Traces
------------------------------------------------------------

/-
  An attempt at a statement ends in an outcome and leaves a
  state.
-/
inductive StatementTrace
    (state : State) :
    Outcome Diagnostic Stmt → State → Prop where
  | unnamed
      (hLet : state.stream.currentIs .letWord = true)
      (hName :
        ∀ name ∈ state.stream.peek, name.kind ≠ .ident) :
      StatementTrace state
        (.failed (Diagnostic.root (.statementFailed .binding)))
        (state.recordUnexpected .ident state.stream.peek)
  | unsigned
      {name : Token}
      (hLet : state.stream.currentIs .letWord = true)
      (hPeek : state.stream.peek = some name)
      (hName : name.kind = .ident)
      (hSign :
        state.advance.advance.stream.currentIs .assign =
          false) :
      StatementTrace state
        (.failed (Diagnostic.root (.statementFailed .binding)))
        (state.advance.advance.recordUnexpected .assign
          state.advance.advance.stream.current)
  | done
      {start middle : State}
      {form : StatementForm}
      {make : Expr → Stmt}
      {expr : Expr}
      (hOpening : Opening state form make start)
      (hExpression :
        start.expression .lowest = (.done expr, middle)) :
      StatementTrace state
        (.done (make expr)) ((make expr).leave middle)
  | failed
      {start middle : State}
      {form : StatementForm}
      {make : Expr → Stmt}
      {raised : Diagnostic}
      (hOpening : Opening state form make start)
      (hExpression :
        start.expression .lowest =
          (.failed raised, middle)) :
      StatementTrace state
        (.failed
          ⟨.statementFailed form, some middle.log.size⟩)
        (middle.record raised)
  | fatal
      {start middle : State}
      {form : StatementForm}
      {make : Expr → Stmt}
      {fault : Fault}
      (hOpening : Opening state form make start)
      (hExpression :
        start.expression .lowest = (.fatal fault, middle)) :
      StatementTrace state (.fatal fault) middle

/- A binding without a name fails where it stands. -/
theorem statement_of_unnamed
    {state : State}
    (hLet : state.stream.currentIs .letWord = true)
    (hName :
      ∀ name ∈ state.stream.peek, name.kind ≠ .ident) :
    statement state =
      incompleteBinding state .ident state.stream.peek := by
  unfold statement
  rw [if_pos hLet]
  unfold binding
  cases hPeek : state.stream.peek with
  | none => rfl
  | some name =>
      have hNot : name.kind ≠ .ident := hName name hPeek
      simp only [if_neg hNot]

/- A binding without a sign fails behind its name. -/
theorem statement_of_unsigned
    {state : State}
    {name : Token}
    (hLet : state.stream.currentIs .letWord = true)
    (hPeek : state.stream.peek = some name)
    (hName : name.kind = .ident)
    (hSign :
      state.advance.advance.stream.currentIs .assign =
        false) :
    statement state =
      incompleteBinding state.advance.advance .assign
        state.advance.advance.stream.current := by
  rcases TokenStream.exists_current_of_currentIs hLet
    with ⟨opening, hOpening, -⟩
  unfold statement
  rw [if_pos hLet]
  unfold binding
  simp [hPeek, hName, hOpening, hSign]

/- An attempt whose statement is opened is traced. -/
theorem Opening.trace
    {state start : State}
    {form : StatementForm}
    {make : Expr → Stmt}
    (hOpening : Opening state form make start) :
    StatementTrace state
      (statement state).1 (statement state).2 := by
  rw [statement_of_opening hOpening]
  unfold value
  rcases hExpression : start.expression .lowest
    with ⟨expr | raised | fault, middle⟩
  · exact .done hOpening hExpression
  · exact .failed hOpening hExpression
  · exact .fatal hOpening hExpression

/- An attempt at a binding is traced. -/
theorem trace_of_letWord
    {state : State}
    (hLet : state.stream.currentIs .letWord = true) :
    StatementTrace state
      (statement state).1 (statement state).2 := by
  rcases TokenStream.exists_current_of_currentIs hLet
    with ⟨opening, hOpening, hKind⟩
  by_cases hName :
      ∀ name ∈ state.stream.peek, name.kind ≠ .ident
  · rw [statement_of_unnamed hLet hName]
    exact .unnamed hLet hName
  · simp only [Classical.not_forall, Classical.not_not]
      at hName
    rcases hName with ⟨name, hPeek, hIdent⟩
    cases hSign :
        state.advance.advance.stream.currentIs .assign with
    | false =>
        rw [statement_of_unsigned hLet hPeek hIdent hSign]
        exact .unsigned hLet hPeek hIdent hSign
    | true =>
        exact
          (Opening.binding hOpening hKind hPeek hIdent
            hSign).trace

/- What the parser does on a statement is a trace of it. -/
theorem statement_trace
    (state : State) :
    StatementTrace state
      (statement state).1 (statement state).2 := by
  cases hLet : state.stream.currentIs .letWord with
  | true => exact trace_of_letWord hLet
  | false =>
      cases hReturn : state.stream.currentIs .returnWord with
      | true =>
          rcases TokenStream.exists_current_of_currentIs
              hReturn with ⟨opening, hOpening, hKind⟩
          exact (Opening.result hOpening hKind).trace
      | false => exact (Opening.bare hLet hReturn).trace

/- A trace is what the parser does. -/
theorem StatementTrace.statement_eq
    {state after : State}
    {outcome : Outcome Diagnostic Stmt}
    (hTrace : StatementTrace state outcome after) :
    statement state = (outcome, after) := by
  cases hTrace with
  | unnamed hLet hName =>
      exact statement_of_unnamed hLet hName
  | unsigned hLet hPeek hName hSign =>
      exact statement_of_unsigned hLet hPeek hName hSign
  | done hOpening hExpression =>
      rw [statement_of_opening hOpening]
      unfold value
      rw [hExpression]
      rfl
  | failed hOpening hExpression =>
      rw [statement_of_opening hOpening]
      unfold value
      rw [hExpression]
      rfl
  | fatal hOpening hExpression =>
      rw [statement_of_opening hOpening]
      unfold value
      rw [hExpression]
      rfl

/- Attempts and their traces are the same. -/
theorem statementTrace_iff
    {state after : State}
    {outcome : Outcome Diagnostic Stmt} :
    StatementTrace state outcome after ↔
      statement state = (outcome, after) := by
  constructor
  · intro hTrace
    exact hTrace.statement_eq
  · intro h
    have hTrace := statement_trace state
    rw [h] at hTrace
    exact hTrace

end Parse

end LetLang

import LetLang.Proofs.Parse.Course
import LetLang.Proofs.Parse.Trace

/-
  Progress: a parse passes places and does nothing else to a
  stream.

  Whatever a rule comes to, it leaves the stream that it was
  given some places later. So the tokens that are visible in
  the end stand in the stream of the start, and what is left
  of a stream is an end of it.

  Key definitions include:
    * `TokenStream.skip`
    * `TokenStream.Later`

  Main declarations:
    * `Parse.Trace.later`
    * `Parse.later_of_statement`
    * `Parse.Course.later`
-/

------------------------------------------------------------
-- Some Places Later
------------------------------------------------------------

namespace LetLang

namespace TokenStream

theorem get?_ofTokens
    (tokens : List Token)
    (i : Nat) :
    (ofTokens tokens).get? i = tokens[i]? := by
  unfold get? ofTokens ofPlaces beyond
  rw [List.getElem?_map]
  cases tokens[i]? with
  | none => rfl
  | some token => rfl

/- The stream after a number of places. -/
def skip
    (stream : TokenStream)
    (n : Nat) : TokenStream :=
  ⟨stream.rest.drop n, stream.endless, stream.position + n⟩

theorem skip_skip
    (stream : TokenStream)
    (m n : Nat) :
    (stream.skip m).skip n = stream.skip (m + n) := by
  simp [skip, Nat.add_assoc]

theorem skip_succ
    (stream : TokenStream)
    (n : Nat) :
    stream.skip (n + 1) = stream.advance.skip n := by
  simp [skip, advance, Nat.add_assoc, Nat.add_comm n 1]

theorem get?_skip
    (stream : TokenStream)
    (n i : Nat) :
    (stream.skip n).get? i = stream.get? (n + i) := by
  unfold get? skip
  rw [List.getElem?_drop]
  rfl

theorem current_skip
    (stream : TokenStream)
    (n : Nat) :
    (stream.skip n).current = stream.get? n := by
  rw [← get?_zero, get?_skip, Nat.add_zero]

/- One stream is the other a number of places later. -/
def Later
    (stream after : TokenStream) : Prop :=
  ∃ n, after = stream.skip n

namespace Later

theorem refl
    (stream : TokenStream) :
    stream.Later stream :=
  ⟨0, rfl⟩

theorem trans
    {stream middle after : TokenStream}
    (hFirst : stream.Later middle)
    (hLater : middle.Later after) :
    stream.Later after := by
  rcases hFirst with ⟨m, rfl⟩
  rcases hLater with ⟨n, rfl⟩
  exact ⟨m + n, stream.skip_skip m n⟩

theorem suffix
    {stream after : TokenStream}
    (h : stream.Later after) :
    after.rest <:+ stream.rest := by
  rcases h with ⟨n, rfl⟩
  exact List.drop_suffix n stream.rest

end Later

theorem later_advance
    (stream : TokenStream) :
    stream.Later stream.advance := by
  refine ⟨1, ?_⟩
  simp [advance, skip]

theorem Later.of_advance
    {stream after : TokenStream}
    (h : stream.advance.Later after) :
    stream.Later after :=
  stream.later_advance.trans h

end TokenStream

------------------------------------------------------------
-- Expressions
------------------------------------------------------------

namespace Parse

open TokenStream

/- Every task of the parser leaves its stream later. -/
theorem Trace.later
    {task : Task}
    {stream after : TokenStream}
    {attempt : Attempt}
    (hTrace : Trace task stream attempt after) :
    stream.Later after := by
  induction hTrace with
  | missing hCurrent => exact Later.refl _
  | expressionDone hCurrent hOperand hClimb ihOperand
      ihClimb => exact (ihOperand.trans ihClimb).of_advance
  | expressionFailed hCurrent hOperand ihOperand =>
      exact ihOperand.of_advance
  | expressionFatal hCurrent hOperand ihOperand =>
      exact ihOperand.of_advance
  | leaf hUnary => exact Later.refl _
  | prefixDone hUnary hRight ihRight => exact ihRight
  | prefixFailed hUnary hRight ihRight => exact ihRight
  | prefixFatal hUnary hRight ihRight => exact ihRight
  | stop hStop => exact Later.refl _
  | climbDone hCurrent hLevel hAbove hRight hClimb ihRight
      ihClimb => exact (ihRight.trans ihClimb).of_advance
  | climbFailed hCurrent hLevel hAbove hRight ihRight =>
      exact ihRight.of_advance
  | climbFatal hCurrent hLevel hAbove hRight ihRight =>
      exact ihRight.of_advance

theorem State.later_of_expression
    {state after : State}
    {floor : Level}
    {outcome : Outcome Diagnostic Expr}
    (h : state.expression floor = (outcome, after)) :
    state.stream.Later after.stream := by
  rcases State.exists_trace h with ⟨attempt, hTrace, -⟩
  exact hTrace.later

------------------------------------------------------------
-- Statements
------------------------------------------------------------

theorem Opening.later
    {state start : State}
    {form : StatementForm}
    {make : Expr → Stmt}
    (hOpening : Opening state form make start) :
    state.stream.Later start.stream := by
  cases hOpening with
  | binding hOpening hLet hPeek hName hSign =>
      exact (later_advance _).of_advance.of_advance
  | result hOpening hReturn => exact later_advance _
  | bare hNotLet hNotReturn => exact Later.refl _

theorem later_leave
    (stmt : Stmt)
    (state : State) :
    state.stream.Later (stmt.leave state).stream := by
  cases stmt with
  | letStmt token name value => exact Later.refl _
  | returnStmt token value => exact Later.refl _
  | exprStmt token expr =>
      simp only [Stmt.leave, passBeforeSemicolon]
      split
      · exact later_advance _
      · exact Later.refl _

/- An attempt at a statement leaves its stream later. -/
theorem StatementTrace.later
    {state after : State}
    {outcome : Outcome Diagnostic Stmt}
    (hTrace : StatementTrace state outcome after) :
    state.stream.Later after.stream := by
  cases hTrace with
  | unnamed hLet hName => exact Later.refl _
  | unsigned hLet hPeek hName hSign =>
      exact (later_advance _).of_advance
  | done hOpening hExpression =>
      exact
        (hOpening.later.trans
          (State.later_of_expression hExpression)).trans
          (later_leave _ _)
  | failed hOpening hExpression =>
      have hMiddle := State.later_of_expression hExpression
      exact hOpening.later.trans hMiddle
  | fatal hOpening hExpression =>
      exact
        hOpening.later.trans
          (State.later_of_expression hExpression)

/- The same of an attempt of which the outcome is known. -/
theorem later_of_statement
    {state after : State}
    {outcome : Outcome Diagnostic Stmt}
    (hAttempt : statement state = (outcome, after)) :
    state.stream.Later after.stream :=
  (statementTrace_iff.mpr hAttempt).later

/- A whole parse leaves its stream later. -/
theorem Course.later
    {state final : State}
    {result : Except Fault Program}
    (hCourse : Course state result final) :
    state.stream.Later final.stream := by
  have hPassed
      {state after final : State}
      {outcome : Outcome Diagnostic Stmt}
      (hAttempt : statement state = (outcome, after))
      (hLater :
        after.stream.advance.Later final.stream) :
      state.stream.Later final.stream :=
    (later_of_statement hAttempt).trans hLater.of_advance
  induction hCourse with
  | finished hFinished => exact Later.refl _
  | done hUnfinished hAttempt hLater ih =>
      exact hPassed hAttempt ih
  | doneFatal hUnfinished hAttempt hLater ih =>
      exact hPassed hAttempt ih
  | failed hUnfinished hAttempt hLater ih =>
      exact hPassed hAttempt ih
  | fatal hUnfinished hAttempt =>
      exact later_of_statement hAttempt

end Parse

end LetLang

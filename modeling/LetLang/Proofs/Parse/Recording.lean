import LetLang.Proofs.Parse.Trace

/-
  Recording: what is in the log when an expression ends.

  The parser records an error at each operator whose operand
  has failed, and an attempt without a log only notes these
  operators. Both come to the same: the attempt is settled
  with the log at its start, by raising the errors that were
  noted one from the other. So the log at the end is known
  from the attempt, and the parser is known from the traces
  of attempts.

  Key definitions include:
    * `Parse.Task.reply`
    * `Parse.State.settle`

  Main declarations:
    * `Parse.Trace.reply_eq`
    * `Parse.Task.reply_eq_settle`
    * `Parse.Trace.expression_eq`
-/

namespace LetLang

namespace Parse

------------------------------------------------------------
-- Settling
------------------------------------------------------------

/- What comes of a task in a state, with all it records. -/
def Task.reply
    (state : State) : Task → Reply Expr
  | .expression floor => state.expression floor
  | .operand token => state.operand token
  | .climb floor left => state.climb floor left

namespace State

/-
  The reply to an attempt that was made on the stream of a
  state. Of a failure all errors but the last are recorded.
-/
def settle
    (state : State) :
    Attempt × TokenStream → Reply Expr
  | (.done expr, after) =>
      (.done expr, { state with stream := after })
  | (.failed failure, after) =>
      let (log, raised) := failure.raise state.log
      (.failed raised, ⟨after, log⟩)
  | (.fatal fault, after) =>
      (.fatal fault, { state with stream := after })

/- An operator that waits is settled by raising its error. -/
theorem raising_settle
    (state : State)
    (failure : Failure)
    (form : OperatorForm)
    (after : TokenStream) :
    Reply.raising (.operandFailed form)
        (state.settle (.failed failure, after)) =
      state.settle (.failed (failure.under form), after) :=
  rfl

/- A leaf fails without an operator that waits. -/
theorem settle_leaf
    (state : State)
    (token : Token) :
    state.settle (Parse.leaf token, state.stream) =
      state.leaf token := by
  unfold leaf Parse.leaf
  split
  · rfl
  · split <;> rfl
  · rfl
  · rfl
  · rfl

theorem expression_of_current
    {stream : TokenStream}
    {token : Token}
    (hCurrent : stream.current = some token)
    (log : Log)
    (floor : Level) :
    expression ⟨stream, log⟩ floor =
      Reply.andThen (operand ⟨stream.advance, log⟩ token)
        (fun left after => after.climb floor left) := by
  rw [expression_eq]
  simp only [hCurrent]
  rfl

theorem climb_of_level
    {stream : TokenStream}
    {token : Token}
    {floor level : Level}
    (hCurrent : stream.current = some token)
    (hLevel : token.kind.level? = some level)
    (hAbove : floor < level)
    (log : Log)
    (left : Expr) :
    climb ⟨stream, log⟩ floor left =
      Reply.andThen
        (Reply.raising (.operandFailed .binary)
          (expression ⟨stream.advance, log⟩ level))
        (fun right after =>
          after.climb floor (.infixOp token left right)) := by
  rw [climb_eq]
  simp only [hCurrent, hLevel, if_pos hAbove]
  rfl

/- No operator above the level is left to the loop. -/
theorem climb_of_stop
    {state : State}
    {floor : Level}
    (hStop : state.stream.bindsAbove floor = false)
    (left : Expr) :
    state.climb floor left = (.done left, state) := by
  rw [climb_eq]
  unfold TokenStream.bindsAbove Token.Kind.bindsAbove
    at hStop
  cases hCurrent : state.stream.current with
  | none => rfl
  | some token =>
      simp only [hCurrent, Option.any_some] at hStop
      cases hLevel : token.kind.level? with
      | none => simp only [hLevel]
      | some level =>
          have hNot : ¬ floor < level := by
            simpa [hLevel] using hStop
          simp only [hLevel, if_neg hNot]

end State

/-
  The parser does what the trace of an attempt says, and
  records what settles it. The induction is along the trace,
  for any log at the start.
-/
theorem Trace.reply_eq
    {task : Task}
    {stream after : TokenStream}
    {attempt : Attempt}
    (hTrace : Trace task stream attempt after)
    (log : Log) :
    task.reply ⟨stream, log⟩ =
      State.settle ⟨stream, log⟩ (attempt, after) := by
  induction hTrace generalizing log with
  | missing hCurrent =>
      simp only [Task.reply]
      rw [State.expression_eq]
      simp only [hCurrent]
      rfl
  | expressionDone hCurrent hOperand hClimb ihOperand
      ihClimb =>
      simp only [Task.reply] at *
      rw [State.expression_of_current hCurrent, ihOperand]
      exact ihClimb log
  | expressionFailed hCurrent hOperand ihOperand =>
      simp only [Task.reply] at *
      rw [State.expression_of_current hCurrent, ihOperand]
      rfl
  | expressionFatal hCurrent hOperand ihOperand =>
      simp only [Task.reply] at *
      rw [State.expression_of_current hCurrent, ihOperand]
      rfl
  | @leaf token stream hUnary =>
      simp only [Task.reply]
      rw [State.operand_eq, hUnary]
      exact (State.settle_leaf ⟨stream, log⟩ token).symm
  | prefixDone hUnary hRight ihRight =>
      simp only [Task.reply] at *
      rw [State.operand_eq, if_pos hUnary, ihRight]
      rfl
  | prefixFailed hUnary hRight ihRight =>
      simp only [Task.reply] at *
      rw [State.operand_eq, if_pos hUnary, ihRight,
        State.raising_settle]
      rfl
  | prefixFatal hUnary hRight ihRight =>
      simp only [Task.reply] at *
      rw [State.operand_eq, if_pos hUnary, ihRight]
      rfl
  | @stop floor left stream hStop =>
      exact State.climb_of_stop hStop left
  | climbDone hCurrent hLevel hAbove hRight hClimb ihRight
      ihClimb =>
      simp only [Task.reply] at *
      rw [State.climb_of_level hCurrent hLevel hAbove,
        ihRight]
      exact ihClimb log
  | climbFailed hCurrent hLevel hAbove hRight ihRight =>
      simp only [Task.reply] at *
      rw [State.climb_of_level hCurrent hLevel hAbove,
        ihRight, State.raising_settle]
      rfl
  | climbFatal hCurrent hLevel hAbove hRight ihRight =>
      simp only [Task.reply] at *
      rw [State.climb_of_level hCurrent hLevel hAbove,
        ihRight]
      rfl

/- So every task is settled as its attempt without a log. -/
theorem Task.reply_eq_settle
    (task : Task)
    (state : State) :
    task.reply state =
      state.settle (task.result state.stream) :=
  (traced task state.stream).reply_eq state.log

------------------------------------------------------------
-- Expressions of a State
------------------------------------------------------------

/- A trace tells what a state replies. -/
theorem Trace.expression_eq
    {state : State}
    {floor : Level}
    {attempt : Attempt}
    {after : TokenStream}
    (hTrace :
      Trace (.expression floor) state.stream attempt after) :
    state.expression floor = state.settle (attempt, after) :=
  hTrace.reply_eq state.log

namespace State

theorem expression_eq_settle
    (state : State)
    (floor : Level) :
    state.expression floor =
      state.settle (Parse.expression floor state.stream) :=
  (Task.expression floor).reply_eq_settle state

theorem stream_expression
    (state : State)
    (floor : Level) :
    (state.expression floor).2.stream =
      (Parse.expression floor state.stream).2 := by
  rw [expression_eq_settle]
  unfold settle
  rcases Parse.expression floor state.stream
    with ⟨_ | _ | _, _⟩ <;> rfl

variable
  {state after : State}
  {floor : Level}

/- What a state replies has a trace. -/
theorem exists_trace
    {outcome : Outcome Diagnostic Expr}
    (h : state.expression floor = (outcome, after)) :
    ∃ attempt,
      Trace (.expression floor) state.stream attempt
          after.stream ∧
        state.settle (attempt, after.stream) =
          (outcome, after) := by
  have hTrace := traced (.expression floor) state.stream
  have hStream := state.stream_expression floor
  rw [h] at hStream
  have hResult :
      Trace (.expression floor) state.stream
        (Parse.expression floor state.stream).1
        after.stream := by
    rw [hStream]
    exact hTrace
  exact ⟨_, hResult, hResult.expression_eq.symm.trans h⟩

theorem trace_of_failed
    {raised : Diagnostic}
    (h : state.expression floor = (.failed raised, after)) :
    ∃ failure,
      Trace (.expression floor) state.stream
          (.failed failure) after.stream ∧
        failure.raise state.log = (after.log, raised) := by
  rcases exists_trace h with
    ⟨expr | failure | fault, hTrace, hSettle⟩
  · cases congrArg Prod.fst hSettle
  · refine ⟨failure, hTrace, ?_⟩
    have hLog := congrArg (fun reply => reply.2.log) hSettle
    have hRaised :=
      Outcome.failed.inj (congrArg Prod.fst hSettle)
    exact Prod.ext hLog hRaised
  · cases congrArg Prod.fst hSettle

/- If it ends with a fault, nothing has been recorded. -/
theorem trace_of_fatal
    {fault : Fault}
    (h : state.expression floor = (.fatal fault, after)) :
    Trace (.expression floor) state.stream (.fatal fault)
        after.stream ∧
      after.log = state.log := by
  rcases exists_trace h with
    ⟨expr | failure | found, hTrace, hSettle⟩
  · cases congrArg Prod.fst hSettle
  · cases congrArg Prod.fst hSettle
  · have hLog := congrArg (fun reply => reply.2.log) hSettle
    cases congrArg Prod.fst hSettle
    exact ⟨hTrace, hLog.symm⟩

end State

end Parse

end LetLang

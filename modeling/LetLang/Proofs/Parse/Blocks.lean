import LetLang.Proofs.Parse.Acceptance
import LetLang.Proofs.Parse.Obstacle
import LetLang.Proofs.Parse.Rounds

/-
  Blocks: the log of a whole parse, one block of errors for
  each attempt that fails.

  A binding that lacks its name or its sign records what was
  found instead, and that the statement failed; neither is
  caused by another error. Every other failed attempt
  records a chain: the obstacle, the prefix operators that
  wait for an operand there, the operators with two operands
  that wait outside of them, and the statement. An attempt
  that gives a statement records nothing.

  Key definitions include:
    * `TokenStream.form`
    * `Parse.Block`
    * `Parse.Blocks`

  Main declarations:
    * `Parse.StatementTrace.exists_block`
    * `Parse.Leads.exists_blocks`
    * `Parse.run_blocks`
-/

------------------------------------------------------------
-- Forms of Attempts
------------------------------------------------------------

namespace LetLang

/- The form of the statement that a stream starts with. -/
def TokenStream.form
    (stream : TokenStream) : StatementForm :=
  if stream.currentIs .letWord then
    .binding
  else if stream.currentIs .returnWord then
    .result
  else
    .expression

namespace Parse

/- An opening is of the form that the first token tells. -/
theorem Opening.form_eq
    {state start : State}
    {form : StatementForm}
    {make : Expr → Stmt}
    (hOpening : Opening state form make start) :
    state.stream.form = form := by
  cases hOpening with
  | binding hOpening hLet hPeek hName hSign =>
      simp [TokenStream.form, TokenStream.currentIs,
        hOpening, hLet]
  | result hOpening hReturn =>
      simp [TokenStream.form, TokenStream.currentIs,
        hOpening, hReturn]
  | bare hNotLet hNotReturn =>
      simp [TokenStream.form, hNotLet, hNotReturn]

------------------------------------------------------------
-- Blocks of Failed Attempts
------------------------------------------------------------

/-
  The errors that a failed attempt on a stream records from
  a place of the log on.
-/
inductive Block
    (place : Nat)
    (stream : TokenStream) :
    List Diagnostic → Prop where
  | unnamed
      (hForm : stream.form = .binding) :
      Block place stream
        [Diagnostic.root
            (.unexpectedToken .ident (stream.get? 1)),
          Diagnostic.root (.statementFailed .binding)]
  | unsigned
      (hForm : stream.form = .binding) :
      Block place stream
        [Diagnostic.root
            (.unexpectedToken .assign (stream.get? 2)),
          Diagnostic.root (.statementFailed .binding)]
  | chain
      {obstacle : Obstacle}
      {unaries binaries : Nat}
      (hBinaries : binaries ≤ 4) :
      Block place stream
        (Diagnostic.chain place
          (obstacle.error
            :: (List.replicate unaries
                  (.operandFailed .unary)
                ++ List.replicate binaries
                  (.operandFailed .binary)
                ++ [.statementFailed stream.form])))

/-
  An attempt that fails in its expression records the chain
  of that failure and of the statement.
-/
theorem toList_log_of_failed
    {state start middle : State}
    {form : StatementForm}
    {make : Expr → Stmt}
    {cause : Diagnostic}
    (hOpening : Opening state form make start)
    (hExpression :
      start.expression .lowest = (.failed cause, middle)) :
    ∃ failure,
      Trace (.expression .lowest) start.stream
          (.failed failure) middle.stream ∧
        ((middle.record cause).record
            ⟨.statementFailed form,
              some middle.log.size⟩).log.toList =
          state.log.toList
            ++ Diagnostic.chain state.log.size
              (failure.errors ++ [.statementFailed form]) := by
  rcases State.exists_failure hExpression with
    ⟨failure, hFailure, hLog⟩
  rw [hOpening.log_eq] at hLog
  exact
    ⟨failure, hFailure,
      Log.toList_citing failure.errors_ne_nil hLog
        (.statementFailed form)⟩

theorem errors_eq_of_trace
    {stream after : TokenStream}
    {failure : Failure}
    (hTrace :
      Trace (.expression .lowest) stream
        (.failed failure) after) :
    ∃ unaries binaries,
      failure.errors =
          failure.obstacle.error
            :: (List.replicate unaries
                  (.operandFailed .unary)
                ++ List.replicate binaries
                  (.operandFailed .binary)) ∧
        binaries ≤ 4 := by
  rcases hTrace.waiting_eq rfl with
    ⟨binaries, unaries, hWaiting, hDepth⟩
  refine ⟨unaries, binaries, ?_, hDepth⟩
  simp [Failure.errors, hWaiting]

/- A failed attempt adds a block to the log. -/
theorem StatementTrace.exists_block
    {state after : State}
    {outcome : Outcome Diagnostic Stmt}
    (hTrace : StatementTrace state outcome after)
    {raised : Diagnostic}
    (hFailed : outcome = .failed raised) :
    ∃ block,
      Block state.log.size state.stream block ∧
        (after.record raised).log.toList =
          state.log.toList ++ block := by
  cases hTrace with
  | unnamed hLet hName =>
      cases hFailed
      have hForm : state.stream.form = .binding := by
        simp [TokenStream.form, hLet]
      refine ⟨_, .unnamed hForm, ?_⟩
      simp [State.record, State.recordUnexpected,
        TokenStream.get?_one]
  | unsigned hLet hPeek hName hSign =>
      cases hFailed
      have hForm : state.stream.form = .binding := by
        simp [TokenStream.form, hLet]
      refine ⟨_, .unsigned hForm, ?_⟩
      simp [State.record, State.recordUnexpected,
        State.advance, ← TokenStream.get?_zero,
        TokenStream.get?_advance]
  | done hOpening hExpression => cases hFailed
  | @failed start middle form make cause hOpening
      hExpression =>
      cases hFailed
      rcases toList_log_of_failed hOpening hExpression with
        ⟨failure, hFailure, hLog⟩
      rcases errors_eq_of_trace hFailure with
        ⟨unaries, binaries, hErrors, hBinaries⟩
      refine ⟨_, ?_, hLog⟩
      rw [hErrors, ← hOpening.form_eq, List.cons_append]
      exact .chain hBinaries
  | fatal hOpening hExpression => cases hFailed

/- An attempt that gives a statement leaves the log alone. -/
theorem StatementTrace.log_eq
    {state after : State}
    {outcome : Outcome Diagnostic Stmt}
    (hTrace : StatementTrace state outcome after)
    {stmt : Stmt}
    (hDone : outcome = .done stmt) :
    after.log = state.log := by
  rcases reads_of_statement
      (hDone ▸ hTrace.statement_eq) with
    ⟨-, sign, middle, -, -, -, rfl⟩
  exact stmt.log_leave ⟨middle, state.log⟩

------------------------------------------------------------
-- Blocks of a Parse
------------------------------------------------------------

/-
  From a place of the log on, the errors of rounds are the
  blocks of those that fail, in order and one for each.
-/
inductive Blocks :
    Nat → List Round → List Diagnostic → Prop where
  | nil
      {place : Nat} :
      Blocks place [] []
  | done
      {place : Nat}
      {round : Round}
      {rounds : List Round}
      {errors : List Diagnostic}
      (hDone : round.stmt?.isSome = true)
      (hLog : round.next.log = round.before.log)
      (hLater : Blocks place rounds errors) :
      Blocks place (round :: rounds) errors
  | failed
      {place : Nat}
      {round : Round}
      {rounds : List Round}
      {block errors : List Diagnostic}
      (hFailed : round.stmt? = none)
      (hBlock : Block place round.before.stream block)
      (hLog :
        round.next.log.toList =
          round.before.log.toList ++ block)
      (hLater :
        Blocks (place + block.length) rounds errors) :
      Blocks place (round :: rounds) (block ++ errors)

/- What rounds add to the log are their blocks. -/
theorem Leads.exists_blocks
    {state last : State}
    {rounds : List Round}
    (hLeads : Leads state rounds last) :
    ∃ errors,
      Blocks state.log.size rounds errors ∧
        last.log.toList = state.log.toList ++ errors := by
  induction hLeads with
  | nil => exact ⟨[], .nil, (List.append_nil _).symm⟩
  | @done state after last stmt rounds hUnfinished
      hAttempt hLater ih =>
      have hLog : after.advance.log = state.log :=
        (statementTrace_iff.mpr hAttempt).log_eq rfl
      rcases ih with ⟨errors, hBlocks, hLast⟩
      rw [hLog] at hBlocks hLast
      exact ⟨errors, .done rfl hLog hBlocks, hLast⟩
  | @failed state after last raised rounds hUnfinished
      hAttempt hLater ih =>
      rcases (statementTrace_iff.mpr hAttempt).exists_block
          rfl with ⟨block, hBlock, hLog⟩
      have hNext :
          (after.record raised).advance.log.toList =
            state.log.toList ++ block := hLog
      rcases ih with ⟨errors, hBlocks, hLast⟩
      have hSize :
          (after.record raised).advance.log.size =
            state.log.size + block.length := by
        rw [← Array.length_toList, hNext,
          List.length_append, Array.length_toList]
      rw [hSize] at hBlocks
      refine
        ⟨block ++ errors, .failed rfl hBlock hNext hBlocks,
          ?_⟩
      rw [hLast, hNext, List.append_assoc]

theorem Rounds.exists_blocks
    {state final : State}
    {rounds : List Round}
    (hRounds : Rounds state rounds final) :
    ∃ errors,
      Blocks state.log.size rounds errors ∧
        final.log.toList = state.log.toList ++ errors :=
  hRounds.leads.exists_blocks

------------------------------------------------------------
-- Counting Attempts
------------------------------------------------------------

end Parse

/- Whether an error says that a statement failed. -/
def ParseError.isStatement : ParseError → Bool
  | .statementFailed _ => true
  | _ => false

/- How many errors of a log say that a statement failed. -/
def Log.failedStatements
    (errors : List Diagnostic) : Nat :=
  (errors.map Diagnostic.error).countP
    ParseError.isStatement

namespace Parse

/- A block says once that a statement failed. -/
theorem Block.failedStatements_eq
    {place : Nat}
    {stream : TokenStream}
    {block : List Diagnostic}
    (hBlock : Block place stream block) :
    Log.failedStatements block = 1 := by
  cases hBlock with
  | unnamed hForm => rfl
  | unsigned hForm => rfl
  | @chain obstacle unaries binaries hBinaries =>
      have hOperands (n : Nat) (form : OperatorForm) :
          (List.replicate n
              (ParseError.operandFailed form)).countP
            ParseError.isStatement = 0 := by
        simp [ParseError.isStatement]
      have hObstacle :
          obstacle.error.isStatement = false := by
        cases obstacle with
        | missing => rfl
        | unusable token => rfl
      unfold Log.failedStatements
      rw [Diagnostic.map_error_chain, List.countP_cons,
        List.countP_append, List.countP_append, hOperands,
        hOperands, hObstacle]
      rfl

/- Every round gives a statement or an error of its own. -/
theorem Blocks.length_eq
    {place : Nat}
    {rounds : List Round}
    {errors : List Diagnostic}
    (hBlocks : Blocks place rounds errors) :
    rounds.length =
      (rounds.filterMap Round.stmt?).length
        + Log.failedStatements errors := by
  induction hBlocks with
  | nil => rfl
  | @done place round rounds errors hDone hLog hLater ih =>
      rcases Option.isSome_iff_exists.mp hDone with
        ⟨stmt, hStmt⟩
      rw [List.filterMap_cons_some hStmt, List.length_cons,
        List.length_cons, ih]
      omega
  | @failed place round rounds block errors hFailed hBlock
      hLog hLater ih =>
      have hBoth :
          Log.failedStatements (block ++ errors) =
            1 + Log.failedStatements errors := by
        rw [← hBlock.failedStatements_eq]
        simp only [Log.failedStatements, List.map_append,
          List.countP_append]
      rw [List.filterMap_cons_none hFailed,
        List.length_cons, hBoth, ih]
      omega

/-
  The log of a parse that ends with a program: it consists
  of rounds, those that fail have each left a block, and the
  blocks in order are the whole log. So there are as many
  attempts as statements and failures of statements.
-/
theorem run_blocks
    (stream : TokenStream)
    (program : Program)
    (hProgram : (run stream).program = .ok program) :
    ∃ rounds,
      Rounds (State.ofStream stream) rounds
          (run stream).final ∧
        program = rounds.filterMap Round.stmt? ∧
        Blocks 0 rounds (run stream).final.log.toList ∧
        rounds.length =
          program.length
            + Log.failedStatements
              (run stream).final.log.toList := by
  rcases exists_rounds_of_run hProgram with
    ⟨rounds, hRounds, rfl⟩
  rcases hRounds.exists_blocks with ⟨errors, hBlocks, hLog⟩
  have hErrors : (run stream).final.log.toList = errors :=
    hLog
  rw [hErrors]
  exact ⟨rounds, hRounds, rfl, hBlocks, hBlocks.length_eq⟩

/-
  An operand that is missing behind three operators, a name
  that is missing, and a number: three attempts.
-/
theorem run_blocks_operators :
    (source "1 + 2 * -;; let 5").program =
        .ok [.exprStmt ⟨.int, "5"⟩ (.int ⟨.int, "5"⟩ 5)] ∧
      ∃ rounds,
        Blocks 0 rounds
            (source "1 + 2 * -;; let 5").final.log.toList ∧
          rounds.length = 3 := by
  have hProgram :
      (source "1 + 2 * -;; let 5").program =
        .ok [.exprStmt ⟨.int, "5"⟩ (.int ⟨.int, "5"⟩ 5)] :=
    eq_ok_of_toOption (by decide +kernel)
  have hFailed :
      Log.failedStatements
          (source "1 + 2 * -;; let 5").final.log.toList =
        2 := by
    decide +kernel
  refine ⟨hProgram, ?_⟩
  rcases run_blocks _ _ hProgram with
    ⟨rounds, -, -, hBlocks, hLength⟩
  refine ⟨rounds, hBlocks, ?_⟩
  rw [hLength]
  exact congrArg (1 + ·) hFailed

end Parse

end LetLang

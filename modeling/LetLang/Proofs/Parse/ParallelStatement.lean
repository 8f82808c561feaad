import LetLang.Proofs.Diagnostic.Translation
import LetLang.Proofs.Parse.Acceptance
import LetLang.Proofs.Parse.Obstacle
import LetLang.Proofs.Parse.Parallel

/-
  Statements on parallel streams.

  A statement that is done, fails or ends in a fault on one
  of two parallel streams does so on the other. The errors
  are the same but for what stands at the stops; if that is
  the same token, they are the same altogether. Only what is
  passed behind a bare expression may differ, for the place
  after the current one is looked at there, and it may lie
  behind the stops.

  Key definitions include:
    * `TokenStream.Translates`
    * `Parse.FailsAlike`

  Main declarations:
    * `Parse.parallel_of_done`
    * `Parse.parallel_of_failed`
    * `Parse.parallel_of_fatal`
-/

namespace LetLang

namespace TokenStream

------------------------------------------------------------
-- Errors at the Stops
------------------------------------------------------------

/-
  A translation of the errors that one stop is the reason
  for into those that another one is. Errors about operators
  and statements are left alone, and so are errors about a
  token that could stand before the stops.
-/
structure Translates
    (stop otherStop : TokenStream)
    (change : ParseError → ParseError) : Prop where
  obstacle :
    change stop.obstacle.error = otherStop.obstacle.error
  found :
    ∀ expected,
      change (.unexpectedToken expected stop.current) =
        .unexpectedToken expected otherStop.current
  noOperand :
    ∀ token, change (.noOperand token) = .noOperand token
  unexpected :
    ∀ expected token,
      change (.unexpectedToken expected (some token)) =
        .unexpectedToken expected (some token)
  operandFailed :
    ∀ form,
      change (.operandFailed form) = .operandFailed form
  statementFailed :
    ∀ form,
      change (.statementFailed form) = .statementFailed form

namespace Translates

variable
  {stop otherStop stream other : TokenStream}
  {change : ParseError → ParseError}

/- Stops with the same token are reasons for the same. -/
theorem id_of_current
    (hSame : otherStop.current = stop.current) :
    Translates stop otherStop id := by
  constructor
  · unfold TokenStream.obstacle
    rw [hSame]
    rfl
  · intro expected
    rw [hSame]
    rfl
  · exact fun token => rfl
  · exact fun expected token => rfl
  · exact fun form => rfl
  · exact fun form => rfl

theorem found_of_parallel
    {shared : List Token}
    (hChange : Translates stop otherStop change)
    (h : Parallel stop otherStop shared stream other)
    (expected : Token.Kind) :
    change (.unexpectedToken expected stream.current) =
      .unexpectedToken expected other.current := by
  cases shared with
  | nil =>
      rw [h.eq_stops.1, h.eq_stops.2]
      exact hChange.found expected
  | cons token shared =>
      rw [h.current_cons.1, h.current_cons.2]
      exact hChange.unexpected expected token

/-
  Two failures that end alike have the same operators, and
  the obstacle of one translates into that of the other.
-/
theorem obstacle_of_meets
    {after otherAfter : TokenStream}
    {floor : Level}
    {failure otherFailure : Failure}
    (hChange : Translates stop otherStop change)
    (hTrace :
      Parse.Trace (.expression floor) stream
        (.failed failure) after)
    (hOther :
      Parse.Trace (.expression floor) other
        (.failed otherFailure) otherAfter)
    (hMeets :
      Meets stop otherStop after otherAfter
        (.failed failure) (.failed otherFailure)) :
    otherFailure.waiting = failure.waiting ∧
      change failure.obstacle.error =
        otherFailure.obstacle.error := by
  cases hMeets with
  | behind hAfter hOtherAfter =>
      exact ⟨rfl, hChange.obstacle⟩
  | @before left _ hAfter =>
      refine ⟨rfl, ?_⟩
      -- Nothing is missing but where both streams have no
      -- token, and that is at their stops.
      have hStopped :
          Parse.Stopped stream failure.obstacle after :=
        hTrace.stoppedBy rfl
      have hOtherStopped :
          Parse.Stopped other failure.obstacle otherAfter :=
        hOther.stoppedBy rfl
      generalize failure.obstacle = obstacle
        at hStopped hOtherStopped ⊢
      cases hStopped with
      | unusable hReads hCurrent =>
          exact hChange.noOperand _
      | missing hReads hCurrent =>
          cases hOtherStopped with
          | missing hOtherReads hOtherCurrent =>
              have hObstacle := hChange.obstacle
              rcases hAfter.eq_nil_of_current hCurrent with
                rfl
              rw [hAfter.eq_stops.1] at hCurrent
              rw [hAfter.eq_stops.2] at hOtherCurrent
              simpa [TokenStream.obstacle, hCurrent,
                hOtherCurrent] using hObstacle

end Translates

end TokenStream

namespace Parse

open TokenStream

variable
  {stop otherStop : TokenStream}
  {shared : List Token}
  {state other after : State}

------------------------------------------------------------
-- Statements that Are Done
------------------------------------------------------------

/-
  What is done on one stream is done on the other, and the
  tokens of the statement lead to parallel streams. What is
  passed behind them depends on what stands there.
-/
theorem parallel_of_done
    (hStop : stop.IsStop)
    (hOtherStop : otherStop.IsStop)
    {stmt : Stmt}
    (h :
      Parallel stop otherStop shared state.stream
        other.stream)
    (hAttempt : statement state = (.done stmt, after)) :
    ∃ middle otherMiddle left,
      Parallel stop otherStop left middle otherMiddle ∧
        after = stmt.leave ⟨middle, state.log⟩ ∧
        statement other =
          (.done stmt,
            stmt.leave ⟨otherMiddle, other.log⟩) := by
  rcases reads_of_statement hAttempt with
    ⟨hCanonical, sign, middle, hSign, hReads, hEnds, hAfter⟩
  rcases h.exists_reads hStop hReads
      (fun token hMem =>
        hCanonical.isMark_eq_false hSign hMem) with
    ⟨otherMiddle, left, hOther, hMiddle⟩
  have hOtherEnds :
      otherMiddle.bindsAbove .lowest = false := by
    rw [hMiddle.bindsAbove_eq hStop hOtherStop, hEnds]
  exact
    ⟨middle, otherMiddle, left, hMiddle, hAfter,
      statement_of_reads hCanonical hSign hOther hOtherEnds⟩

------------------------------------------------------------
-- Openings
------------------------------------------------------------

theorem parallel_name
    (hStop : stop.IsStop)
    {stream other : TokenStream}
    {name : Token}
    (h : Parallel stop otherStop shared stream other)
    (hLet : stream.currentIs .letWord = true)
    (hPeek : stream.peek = some name)
    (hName : name.kind = .ident) :
    other.peek = some name ∧
      ∃ left,
        Parallel stop otherStop left stream.advance.advance
          other.advance.advance := by
  rcases TokenStream.exists_current_of_currentIs hLet
    with ⟨opening, hOpening, hKind⟩
  rcases h.current_eq_of_kind hStop hOpening hKind rfl with
    ⟨-, later, hLater⟩
  rw [← TokenStream.current_advance] at hPeek ⊢
  exact hLater.current_eq_of_kind hStop hPeek hName rfl

/- What opens on one stream opens on the other. -/
theorem Opening.parallel
    (hStop : stop.IsStop)
    (hOtherStop : otherStop.IsStop)
    {start : State}
    {form : StatementForm}
    {make : Expr → Stmt}
    (h :
      Parallel stop otherStop shared state.stream
        other.stream)
    (hOpening : Opening state form make start) :
    ∃ otherStart left,
      Opening other form make otherStart ∧
        Parallel stop otherStop left start.stream
          otherStart.stream := by
  cases hOpening with
  | @binding opening name hOpening hLet hPeek hName hSign =>
      have hIs : state.stream.currentIs .letWord = true := by
        rw [TokenStream.currentIs_of_current hOpening, hLet]
        rfl
      rcases parallel_name hStop h hIs hPeek hName with
        ⟨hOtherPeek, left, hLeft⟩
      rcases TokenStream.exists_current_of_currentIs hSign
        with ⟨sign, hCurrent, hAssign⟩
      have hOtherSign :
          other.advance.advance.stream.currentIs .assign =
            true := by
        rw [← hSign]
        exact hLeft.currentIs_eq hStop hOtherStop rfl
      rcases h.current_eq_of_kind hStop hOpening hLet rfl
        with ⟨hOtherOpening, -⟩
      rcases hLeft.current_eq_of_kind hStop hCurrent hAssign
          rfl with ⟨-, later, hLater⟩
      exact
        ⟨other.advance.advance.advance, later,
          .binding hOtherOpening hLet hOtherPeek hName
            hOtherSign,
          hLater⟩
  | @result opening hOpening hReturn =>
      rcases h.current_eq_of_kind hStop hOpening hReturn rfl
        with ⟨hOther, left, hLeft⟩
      exact
        ⟨other.advance, left, .result hOther hReturn, hLeft⟩
  | bare hNotLet hNotReturn =>
      rw [← h.currentIs_eq hStop hOtherStop rfl]
        at hNotLet hNotReturn
      exact ⟨other, shared, .bare hNotLet hNotReturn, h⟩

------------------------------------------------------------
-- Failures and Faults
------------------------------------------------------------

/-
  An expression that fails fails on both streams. Its errors
  are translated as those at the stops are, if the log was.
-/
theorem State.parallel_of_failed
    (hStop : stop.IsStop)
    (hOtherStop : otherStop.IsStop)
    {floor : Level}
    {raised : Diagnostic}
    (h :
      Parallel stop otherStop shared state.stream
        other.stream)
    (hExpression :
      state.expression floor = (.failed raised, after)) :
    ∃ otherRaised otherAfter,
      other.expression floor =
          (.failed otherRaised, otherAfter) ∧
        Together stop otherStop after.stream
          otherAfter.stream ∧
        ∀ change,
          Translates stop otherStop change →
            other.log = state.log.translate change →
              otherRaised = raised.translate change ∧
                otherAfter.log =
                  after.log.translate change := by
  rcases State.trace_of_failed hExpression with
    ⟨failure, hTrace, hRaise⟩
  rcases hTrace.parallel hStop hOtherStop h with
    ⟨_, otherStream, hOther, hMeets⟩
  rcases hMeets.exists_failed with ⟨otherFailure, rfl⟩
  refine
    ⟨(otherFailure.raise other.log).2,
      ⟨otherStream, (otherFailure.raise other.log).1⟩,
      hOther.expression_eq, hMeets.together, ?_⟩
  intro change hChange hLog
  rcases hChange.obstacle_of_meets hTrace hOther hMeets
    with ⟨hWaiting, hObstacle⟩
  have hOtherRaise :=
    Failure.raise_translate hObstacle hChange.operandFailed
      failure.waiting state.log
  rcases otherFailure with ⟨otherObstacle, otherWaiting⟩
  cases hWaiting
  rw [hLog, hOtherRaise, hRaise]
  exact ⟨rfl, rfl⟩

/- A fault in an expression is one on both streams. -/
theorem State.parallel_of_fatal
    (hStop : stop.IsStop)
    (hOtherStop : otherStop.IsStop)
    {floor : Level}
    {fault : Fault}
    (h :
      Parallel stop otherStop shared state.stream
        other.stream)
    (hExpression :
      state.expression floor = (.fatal fault, after)) :
    ∃ otherAfter,
      other.expression floor = (.fatal fault, otherAfter) ∧
        after.log = state.log ∧
        otherAfter.log = other.log := by
  rcases State.trace_of_fatal hExpression with
    ⟨hTrace, hLog⟩
  rcases hTrace.parallel hStop hOtherStop h with
    ⟨_, otherStream, hOther, hMeets⟩
  rcases hMeets.eq_fatal with rfl
  exact
    ⟨⟨otherStream, other.log⟩, hOther.expression_eq, hLog,
      rfl⟩

theorem forall_peek_iff
    {stream : TokenStream}
    {kind : Token.Kind} :
    (∀ token ∈ stream.peek, token.kind ≠ kind) ↔
      stream.advance.currentIs kind = false := by
  rw [← TokenStream.current_advance]
  unfold TokenStream.currentIs
  cases stream.advance.current with
  | none => simp
  | some token => simp

/-
  A failed attempt fails on the other stream as well, and
  the streams stay together. Its errors are translated as
  those at the stops are, if the log was.
-/
def FailsAlike
    (stop otherStop : TokenStream)
    (state other : State)
    (raised : Diagnostic)
    (after : State) : Prop :=
  ∃ otherRaised otherAfter,
    statement other = (.failed otherRaised, otherAfter) ∧
      Together stop otherStop after.stream
        otherAfter.stream ∧
      ∀ change,
        Translates stop otherStop change →
          other.log = state.log.translate change →
            otherRaised = raised.translate change ∧
              otherAfter.log = after.log.translate change

/- A binding without a name has none on either stream. -/
theorem parallel_of_unnamed
    (hStop : stop.IsStop)
    (hOtherStop : otherStop.IsStop)
    (h :
      Parallel stop otherStop shared state.stream
        other.stream)
    (hLet : state.stream.currentIs .letWord = true)
    (hName :
      ∀ name ∈ state.stream.peek, name.kind ≠ .ident) :
    FailsAlike stop otherStop state other
      (Diagnostic.root (.statementFailed .binding))
      (state.recordUnexpected .ident state.stream.peek) := by
  rcases TokenStream.exists_current_of_currentIs hLet
    with ⟨opening, hOpening, hKind⟩
  have hOtherLet :
      other.stream.currentIs .letWord = true := by
    rw [← hLet]
    exact h.currentIs_eq hStop hOtherStop rfl
  rcases h.current_eq_of_kind hStop hOpening hKind rfl
    with ⟨-, left, hLeft⟩
  have hOtherName :
      ∀ name ∈ other.stream.peek, name.kind ≠ .ident := by
    rw [forall_peek_iff] at hName ⊢
    rw [← hName]
    exact hLeft.currentIs_eq hStop hOtherStop rfl
  refine
    ⟨_, _,
      (StatementTrace.unnamed hOtherLet
        hOtherName).statement_eq,
      Or.inl ⟨shared, h⟩, ?_⟩
  intro change hChange hLog
  have hFound := hChange.found_of_parallel hLeft .ident
  rw [TokenStream.current_advance,
    TokenStream.current_advance] at hFound
  constructor
  · simp [Diagnostic.translate, Diagnostic.root,
      hChange.statementFailed]
  · simp [State.recordUnexpected, State.record,
      Diagnostic.translate, Diagnostic.root, hFound, hLog]

/- A binding without a sign has none on either stream. -/
theorem parallel_of_unsigned
    (hStop : stop.IsStop)
    (hOtherStop : otherStop.IsStop)
    {name : Token}
    (h :
      Parallel stop otherStop shared state.stream
        other.stream)
    (hLet : state.stream.currentIs .letWord = true)
    (hPeek : state.stream.peek = some name)
    (hName : name.kind = .ident)
    (hSign :
      state.advance.advance.stream.currentIs .assign =
        false) :
    FailsAlike stop otherStop state other
      (Diagnostic.root (.statementFailed .binding))
      (state.advance.advance.recordUnexpected .assign
        state.advance.advance.stream.current) := by
  have hOtherLet :
      other.stream.currentIs .letWord = true := by
    rw [← hLet]
    exact h.currentIs_eq hStop hOtherStop rfl
  rcases parallel_name hStop h hLet hPeek hName with
    ⟨hOtherPeek, left, hLeft⟩
  have hOtherSign :
      other.advance.advance.stream.currentIs .assign =
        false := by
    rw [← hSign]
    exact hLeft.currentIs_eq hStop hOtherStop rfl
  refine
    ⟨_, _,
      (StatementTrace.unsigned hOtherLet hOtherPeek hName
        hOtherSign).statement_eq,
      Or.inl ⟨left, hLeft⟩, ?_⟩
  intro change hChange hLog
  have hFound := hChange.found_of_parallel hLeft .assign
  constructor
  · simp [Diagnostic.translate, Diagnostic.root,
      hChange.statementFailed]
  · simp [State.recordUnexpected, State.record,
      State.advance, Diagnostic.translate, Diagnostic.root,
      hFound, hLog]

/- A statement that fails fails alike on both streams. -/
theorem parallel_of_failed
    (hStop : stop.IsStop)
    (hOtherStop : otherStop.IsStop)
    {raised : Diagnostic}
    (h :
      Parallel stop otherStop shared state.stream
        other.stream)
    (hAttempt : statement state = (.failed raised, after)) :
    FailsAlike stop otherStop state other raised after := by
  cases statementTrace_iff.mpr hAttempt with
  | unnamed hLet hName =>
      exact
        parallel_of_unnamed hStop hOtherStop h hLet hName
  | unsigned hLet hPeek hName hSign =>
      exact
        parallel_of_unsigned hStop hOtherStop h hLet hPeek
          hName hSign
  | @failed start middle form make cause hOpening
      hExpression =>
      rcases hOpening.parallel hStop hOtherStop h with
        ⟨otherStart, left, hOtherOpening, hStart⟩
      rcases State.parallel_of_failed hStop hOtherStop
          hStart hExpression with
        ⟨otherCause, otherMiddle, hOther, hTogether, hErrors⟩
      refine
        ⟨_, _,
          (StatementTrace.failed hOtherOpening
            hOther).statement_eq,
          hTogether, ?_⟩
      intro change hChange hLog
      rw [← hOtherOpening.log_eq, ← hOpening.log_eq] at hLog
      rcases hErrors change hChange hLog with
        ⟨rfl, hMiddle⟩
      constructor
      · simp [Diagnostic.translate, hMiddle,
          hChange.statementFailed]
      · simp [State.record, hMiddle]

/- A fault in a statement is one on both streams. -/
theorem parallel_of_fatal
    (hStop : stop.IsStop)
    (hOtherStop : otherStop.IsStop)
    {fault : Fault}
    (h :
      Parallel stop otherStop shared state.stream
        other.stream)
    (hAttempt : statement state = (.fatal fault, after)) :
    ∃ otherAfter,
      statement other = (.fatal fault, otherAfter) ∧
        after.log = state.log ∧
        otherAfter.log = other.log := by
  cases statementTrace_iff.mpr hAttempt with
  | fatal hOpening hExpression =>
      rcases hOpening.parallel hStop hOtherStop h with
        ⟨otherStart, left, hOtherOpening, hStart⟩
      rcases State.parallel_of_fatal hStop hOtherStop hStart
          hExpression with
        ⟨otherAfter, hOther, hLog, hOtherLog⟩
      rw [hOpening.log_eq] at hLog
      rw [hOtherOpening.log_eq] at hOtherLog
      exact
        ⟨otherAfter,
          (StatementTrace.fatal hOtherOpening
            hOther).statement_eq,
          hLog, hOtherLog⟩

end Parse

end LetLang

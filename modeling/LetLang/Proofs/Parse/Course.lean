import LetLang.Parse.Program
import LetLang.Proofs.Parse.Recording
import LetLang.Proofs.Parse.StatementTrace

/-
  The course of a parse: one attempt at a statement after
  the other, up to the end or to a fault.

  A course says what every attempt came to. A fact about
  whole parses is proved for one attempt and then carried
  along the course by induction. The first such fact is that
  the log only grows.

  Key definitions include:
    * `Parse.Course`
    * `Log.Extends`

  Main declarations:
    * `Parse.course_iff`
    * `Parse.extends_statement`
    * `Parse.Course.extends`
-/

------------------------------------------------------------
-- Courses
------------------------------------------------------------

namespace LetLang

namespace Parse

/-
  A state is parsed to a program or to a fault and leaves a
  state.
-/
inductive Course :
    State → Except Fault Program → State → Prop where
  | finished
      {state : State}
      (hFinished : state.isFinished = true) :
      Course state (.ok []) state
  | done
      {state after final : State}
      {stmt : Stmt}
      {program : Program}
      (hUnfinished : state.isFinished = false)
      (hAttempt : statement state = (.done stmt, after))
      (hLater : Course after.advance (.ok program) final) :
      Course state (.ok (stmt :: program)) final
  | doneFatal
      {state after final : State}
      {stmt : Stmt}
      {fault : Fault}
      (hUnfinished : state.isFinished = false)
      (hAttempt : statement state = (.done stmt, after))
      (hLater : Course after.advance (.error fault) final) :
      Course state (.error fault) final
  | failed
      {state after final : State}
      {raised : Diagnostic}
      {result : Except Fault Program}
      (hUnfinished : state.isFinished = false)
      (hAttempt : statement state = (.failed raised, after))
      (hLater :
        Course (after.record raised).advance
          result final) :
      Course state result final
  | fatal
      {state after : State}
      {fault : Fault}
      (hUnfinished : state.isFinished = false)
      (hAttempt : statement state = (.fatal fault, after)) :
      Course state (.error fault) after

/- What a parse does is a course. -/
theorem course_program
    (state : State) :
    Course state (program state).1 (program state).2 := by
  induction state using program.induct with
  | case1 state hFinished =>
      rw [program_of_finished hFinished]
      exact .finished hFinished
  | case2 state hNot attempt stmt hDone ih =>
      have hUnfinished := Bool.eq_false_iff.mpr hNot
      have hAttempt :
          statement state = (.done stmt, attempt.2) :=
        Prod.ext hDone rfl
      rw [program_of_done hUnfinished hAttempt]
      rcases hLater : program attempt.2.advance
        with ⟨fault | program, final⟩
      · rw [hLater] at ih
        exact .doneFatal hUnfinished hAttempt ih
      · rw [hLater] at ih
        exact .done hUnfinished hAttempt ih
  | case3 state hNot attempt raised hFailed ih =>
      have hUnfinished := Bool.eq_false_iff.mpr hNot
      have hAttempt :
          statement state = (.failed raised, attempt.2) :=
        Prod.ext hFailed rfl
      rw [program_of_failed hUnfinished hAttempt]
      exact .failed hUnfinished hAttempt ih
  | case4 state hNot attempt fault hFatal =>
      have hUnfinished := Bool.eq_false_iff.mpr hNot
      have hAttempt :
          statement state = (.fatal fault, attempt.2) :=
        Prod.ext hFatal rfl
      rw [program_of_fatal hUnfinished hAttempt]
      exact .fatal hUnfinished hAttempt

/- A course is what a parse does. -/
theorem Course.program_eq
    {state final : State}
    {result : Except Fault Program}
    (hCourse : Course state result final) :
    program state = (result, final) := by
  induction hCourse with
  | finished hFinished =>
      exact program_of_finished hFinished
  | done hUnfinished hAttempt hLater ih =>
      rw [program_of_done hUnfinished hAttempt, ih]
      rfl
  | doneFatal hUnfinished hAttempt hLater ih =>
      rw [program_of_done hUnfinished hAttempt, ih]
      rfl
  | failed hUnfinished hAttempt hLater ih =>
      rw [program_of_failed hUnfinished hAttempt, ih]
  | fatal hUnfinished hAttempt =>
      exact program_of_fatal hUnfinished hAttempt

theorem eq_ok_of_toOption
    {result : Except Fault Program}
    {program : Program}
    (h : result.toOption = some program) :
    result = .ok program := by
  cases result with
  | ok found =>
      cases h
      rfl
  | error fault => cases h

/- Courses and parses are the same. -/
theorem course_iff
    {state final : State}
    {result : Except Fault Program} :
    Course state result final ↔
      program state = (result, final) := by
  constructor
  · intro hCourse
    exact hCourse.program_eq
  · intro h
    have hCourse := course_program state
    rw [h] at hCourse
    exact hCourse

end Parse

end LetLang

------------------------------------------------------------
-- The Log Only Grows
------------------------------------------------------------

namespace LetLang

namespace Log

/- One log goes on where the other ends. -/
def Extends
    (later earlier : Log) : Prop :=
  earlier.toList <+: later.toList

theorem Extends.refl
    (log : Log) :
    log.Extends log :=
  List.prefix_refl log.toList

theorem Extends.trans
    {a b c : Log}
    (hLater : c.Extends b)
    (hEarlier : b.Extends a) :
    c.Extends a :=
  List.IsPrefix.trans hEarlier hLater

theorem extends_push
    (log : Log)
    (diagnostic : Diagnostic) :
    Extends (log.push diagnostic) log := by
  unfold Extends
  rw [Array.toList_push]
  exact List.prefix_append log.toList [diagnostic]

theorem Extends.size_le
    {later earlier : Log}
    (h : later.Extends earlier) :
    earlier.size ≤ later.size := by
  have hLength := List.IsPrefix.length_le h
  simpa using hLength

end Log

theorem Failure.extends_raise
    (failure : Failure)
    (log : Log) :
    (failure.raise log).1.Extends log := by
  rcases failure with ⟨obstacle, waiting⟩
  induction waiting with
  | nil => exact Log.Extends.refl log
  | cons form waiting ih =>
      have hUnder := raise_under ⟨obstacle, waiting⟩ form log
      unfold Failure.under at hUnder
      rw [hUnder]
      exact (Log.extends_push _ _).trans ih

namespace Parse

theorem extends_expression
    (state : State)
    (floor : Level) :
    (state.expression floor).2.log.Extends state.log := by
  rw [State.expression_eq_settle]
  unfold State.settle
  rcases Parse.expression floor state.stream
    with ⟨expr | failure | fault, after⟩
  · exact Log.Extends.refl state.log
  · exact failure.extends_raise state.log
  · exact Log.Extends.refl state.log

theorem extends_of_expression
    {state after : State}
    {floor : Level}
    {outcome : Outcome Diagnostic Expr}
    (h : state.expression floor = (outcome, after)) :
    after.log.Extends state.log := by
  have hExtends := extends_expression state floor
  rw [h] at hExtends
  exact hExtends

/- An attempt at a statement extends the log. -/
theorem extends_statement
    (state : State) :
    (statement state).2.log.Extends state.log := by
  have hTrace := statement_trace state
  generalize statement state = reply at hTrace
  rcases reply with ⟨outcome, after⟩
  cases hTrace with
  | unnamed hLet hName => exact Log.extends_push state.log _
  | unsigned hLet hPeek hName hSign =>
      exact Log.extends_push state.log _
  | done hOpening hExpression =>
      have hLog := extends_of_expression hExpression
      rw [hOpening.log_eq, ← Stmt.log_leave] at hLog
      exact hLog
  | @failed start middle form make raised hOpening
      hExpression =>
      have hLog := extends_of_expression hExpression
      rw [hOpening.log_eq] at hLog
      exact (Log.extends_push middle.log raised).trans hLog
  | fatal hOpening hExpression =>
      have hLog := extends_of_expression hExpression
      rw [hOpening.log_eq] at hLog
      exact hLog

/- A whole parse extends the log. -/
theorem Course.extends
    {state final : State}
    {result : Except Fault Program}
    (hCourse : Course state result final) :
    final.log.Extends state.log := by
  induction hCourse with
  | finished hFinished => exact Log.Extends.refl _
  | @done state after final stmt program hUnfinished
      hAttempt hLater ih =>
      have hStep := extends_statement state
      rw [hAttempt] at hStep
      exact ih.trans hStep
  | @doneFatal state after final stmt fault hUnfinished
      hAttempt hLater ih =>
      have hStep := extends_statement state
      rw [hAttempt] at hStep
      exact ih.trans hStep
  | @failed state after final raised result hUnfinished
      hAttempt hLater ih =>
      have hStep := extends_statement state
      rw [hAttempt] at hStep
      exact ih.trans
        ((Log.extends_push after.log raised).trans hStep)
  | @fatal state after fault hUnfinished hAttempt =>
      have hStep := extends_statement state
      rw [hAttempt] at hStep
      exact hStep

/- A failed attempt leaves a longer log for good. -/
theorem size_lt_of_failed
    {state after final : State}
    {raised : Diagnostic}
    {result : Except Fault Program}
    (hAttempt : statement state = (.failed raised, after))
    (hLater :
      Course (after.record raised).advance result final) :
    state.log.size < final.log.size := by
  have hStep := extends_statement state
  rw [hAttempt] at hStep
  have hBefore : state.log.size ≤ after.log.size :=
    hStep.size_le
  have hAfter :
      (after.log.push raised).size ≤ final.log.size :=
    hLater.extends.size_le
  rw [Array.size_push] at hAfter
  omega

end Parse

end LetLang

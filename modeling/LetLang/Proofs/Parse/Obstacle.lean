import LetLang.Proofs.Diagnostic.Chain
import LetLang.Proofs.Parse.Exactness

/-
  Obstacles: where an expression fails, and which operators
  are waiting for an operand there.

  Below a prefix operator no operator with two operands is
  taken, and the right operand of an operator takes only
  tighter ones. So the operators that wait are some with two
  operands, looser ones outside, and inside them some with
  one. There are four levels of operators with two operands;
  no more than four of them wait at once.

  Key definitions include:
    * `Parse.Task.depth`
    * `Parse.Stopped`
    * `Parse.Task.StoppedBy`

  Main declarations:
    * `Parse.Trace.waiting_eq`
    * `Parse.Trace.stoppedBy`
    * `Parse.State.exists_failure`
-/

namespace LetLang

namespace Parse

------------------------------------------------------------
-- Operators that Wait
------------------------------------------------------------

/-
  How many operators with two operands can be waiting below
  a task.
-/
def Task.depth : Task → Nat
  | .expression floor => 4 - floor.rank
  | .operand _ => 0
  | .climb floor _ => 4 - floor.rank

/- There are four levels of operators with two operands. -/
theorem rank_le_of_level?
    {kind : Token.Kind}
    {level : Level}
    (hLevel : kind.level? = some level) :
    level.rank ≤ 4 := by
  have hLoose : level.rank < Level.unary.rank :=
    Token.Kind.level?_lt_unary hLevel
  simp only [Level.rank] at hLoose ⊢
  omega

/- A token that is no operand fails by itself. -/
theorem eq_of_leaf_eq_failed
    {token : Token}
    {failure : Failure}
    (hLeaf : leaf token = .failed failure) :
    failure = ⟨.unusable token, []⟩ := by
  unfold leaf at hLeaf
  split at hLeaf
  · cases hLeaf
  · split at hLeaf
    · cases hLeaf
    · cases hLeaf
  · cases hLeaf
  · cases hLeaf
  · cases hLeaf
    rfl

/-
  The operators that wait: first, outermost, those with two
  operands, no more than the depth of the task, and then
  those with one.
-/
theorem Trace.waiting_eq
    {task : Task}
    {stream after : TokenStream}
    {attempt : Attempt}
    (hTrace : Trace task stream attempt after)
    {failure : Failure}
    (hFailed : attempt = .failed failure) :
    ∃ binaries unaries,
      failure.waiting =
          List.replicate binaries .binary
            ++ List.replicate unaries .unary ∧
        binaries ≤ task.depth := by
  induction hTrace generalizing failure with
  | missing hCurrent =>
      cases hFailed
      exact ⟨0, 0, rfl, Nat.zero_le _⟩
  | expressionDone hCurrent hOperand hClimb ihOperand
      ihClimb => exact ihClimb hFailed
  | expressionFailed hCurrent hOperand ihOperand =>
      rcases ihOperand hFailed with
        ⟨binaries, unaries, hWaiting, hDepth⟩
      exact
        ⟨binaries, unaries, hWaiting,
          Nat.le_trans hDepth (Nat.zero_le _)⟩
  | expressionFatal hCurrent hOperand => cases hFailed
  | leaf hUnary =>
      rw [eq_of_leaf_eq_failed hFailed]
      exact ⟨0, 0, rfl, Nat.zero_le _⟩
  | prefixDone hUnary hRight => cases hFailed
  | prefixFailed hUnary hRight ihRight =>
      cases hFailed
      rcases ihRight rfl with
        ⟨binaries, unaries, hWaiting, hDepth⟩
      -- Nothing with two operands binds above a prefix.
      have hNone : binaries = 0 :=
        Nat.le_zero.mp hDepth
      subst hNone
      refine ⟨0, unaries + 1, ?_, Nat.le_refl 0⟩
      simp only [Failure.under, hWaiting]
      rfl
  | prefixFatal hUnary hRight => cases hFailed
  | stop hStop => cases hFailed
  | climbDone hCurrent hLevel hAbove hRight hClimb ihRight
      ihClimb => exact ihClimb hFailed
  | @climbFailed floor level token left inner stream after
      hCurrent hLevel hAbove hRight ihRight =>
      cases hFailed
      rcases ihRight rfl with
        ⟨binaries, unaries, hWaiting, hDepth⟩
      refine ⟨binaries + 1, unaries, ?_, ?_⟩
      · simp only [Failure.under, hWaiting]
        rfl
      · have hTight : floor.rank < level.rank := hAbove
        have hFour := rank_le_of_level? hLevel
        simp only [Task.depth] at hDepth ⊢
        omega
  | climbFatal hCurrent hLevel hAbove hRight =>
      cases hFailed

------------------------------------------------------------
-- Where the Obstacle Stands
------------------------------------------------------------

/-
  Tokens are passed up to a place where an operand should
  start. If there is none, the place is kept; a token that
  is not usable is passed.
-/
inductive Stopped
    (stream : TokenStream) :
    Obstacle → TokenStream → Prop where
  | missing
      {passed : List Token}
      {place : TokenStream}
      (hReads : stream.Reads passed place)
      (hCurrent : place.current = none) :
      Stopped stream .missing place
  | unusable
      {token : Token}
      {passed : List Token}
      {place : TokenStream}
      (hReads : stream.Reads passed place)
      (hCurrent : place.current = some token) :
      Stopped stream (.unusable token) place.advance

/- What is passed before counts as passed as well. -/
theorem Stopped.of_reads
    {stream middle after : TokenStream}
    {tokens : List Token}
    {obstacle : Obstacle}
    (hReads : stream.Reads tokens middle)
    (hStopped : Stopped middle obstacle after) :
    Stopped stream obstacle after := by
  cases hStopped with
  | missing hLater hCurrent =>
      exact .missing (hReads.trans hLater) hCurrent
  | unusable hLater hCurrent =>
      exact .unusable (hReads.trans hLater) hCurrent

/-
  What an obstacle means for a task. The first token of an
  operand has been passed already, and may be the obstacle.
-/
def Task.StoppedBy
    (stream : TokenStream)
    (obstacle : Obstacle)
    (after : TokenStream) : Task → Prop
  | .expression _ => Stopped stream obstacle after
  | .operand token =>
      (obstacle = .unusable token ∧ after = stream) ∨
        (token.kind ≠ .eof ∧ Stopped stream obstacle after)
  | .climb _ _ => Stopped stream obstacle after

/- A task that fails is stopped by the obstacle it reports. -/
theorem Trace.stoppedBy
    {task : Task}
    {stream after : TokenStream}
    {attempt : Attempt}
    (hTrace : Trace task stream attempt after)
    {failure : Failure}
    (hFailed : attempt = .failed failure) :
    task.StoppedBy stream failure.obstacle after := by
  induction hTrace generalizing failure with
  | @missing floor stream hCurrent =>
      cases hFailed
      exact .missing (TokenStream.Reads.refl stream) hCurrent
  | @expressionDone floor token left attempt stream middle
      after hCurrent hOperand hClimb ihOperand ihClimb =>
      have hFirst :=
        TokenStream.reads_of_current hCurrent
          (kind_ne_eof_of_operand hOperand)
      rcases hOperand.sound rfl with ⟨tokens, -, hReads, -⟩
      exact (ihClimb hFailed).of_reads
        (hFirst.trans hReads)
  | @expressionFailed floor token inner stream after
      hCurrent hOperand ihOperand =>
      rcases ihOperand hFailed with
        ⟨hObstacle, hAfter⟩ | ⟨hKind, hStopped⟩
      · rw [hObstacle, hAfter]
        exact .unusable (TokenStream.Reads.refl stream)
          hCurrent
      · exact hStopped.of_reads
          (TokenStream.reads_of_current hCurrent hKind)
  | expressionFatal hCurrent hOperand => cases hFailed
  | leaf hUnary =>
      rw [eq_of_leaf_eq_failed hFailed]
      exact Or.inl ⟨rfl, rfl⟩
  | prefixDone hUnary hRight => cases hFailed
  | prefixFailed hUnary hRight ihRight =>
      cases hFailed
      have hStopped := ihRight rfl
      exact
        Or.inr ⟨kind_ne_eof_of_isUnary hUnary, hStopped⟩
  | prefixFatal hUnary hRight => cases hFailed
  | stop hStop => cases hFailed
  | @climbDone floor level token left right attempt stream
      middle after hCurrent hLevel hAbove hRight hClimb
      ihRight ihClimb =>
      have hFirst :=
        TokenStream.reads_of_current hCurrent
          (kind_ne_eof_of_level? hLevel)
      rcases hRight.sound rfl with ⟨hReads, -⟩
      exact (ihClimb hFailed).of_reads
        (hFirst.trans hReads)
  | climbFailed hCurrent hLevel hAbove hRight ihRight =>
      cases hFailed
      have hFirst :=
        TokenStream.reads_of_current hCurrent
          (kind_ne_eof_of_level? hLevel)
      have hStopped := (ihRight rfl).of_reads hFirst
      exact hStopped
  | climbFatal hCurrent hLevel hAbove hRight =>
      cases hFailed

------------------------------------------------------------
-- Failed Expressions of a State
------------------------------------------------------------

/-
  An expression that a state raises an error for has failed,
  and with that error the log has the chain of the failure.
-/
theorem State.exists_failure
    {state after : State}
    {floor : Level}
    {raised : Diagnostic}
    (h : state.expression floor = (.failed raised, after)) :
    ∃ failure,
      Trace (.expression floor) state.stream
          (.failed failure) after.stream ∧
        (after.log.push raised).toList =
          state.log.toList
            ++ Diagnostic.chain state.log.size
              failure.errors := by
  rcases State.trace_of_failed h with
    ⟨failure, hTrace, hRaise⟩
  have hLog := failure.toList_raise state.log
  rw [hRaise] at hLog
  exact ⟨failure, hTrace, hLog⟩

end Parse

end LetLang

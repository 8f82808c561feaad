import LetLang.Proofs.Parse.Obstacle
import LetLang.Proofs.Parse.Sources
import LetLang.Proofs.Tree.Unfinished

/-
  Expressions that break off: what has been read when one of
  them fails, and which operators are waiting then.

  What has been read is an unfinished expression, and behind
  it stands no token, or one that starts no operand. So the
  error comes at the first token that cannot go on. Of the
  operators that have been read those wait that no later one
  has taken for its left operand; after the obstacle each of
  them adds an error to the chain, the signs at the end of
  what has been read before the operators with two operands.

  Key definitions include:
    * `Parse.BreaksOff`
    * `Parse.behind`
    * `Parse.waitingForms`
    * `Parse.Task.BreaksOff`

  Main declarations:
    * `Parse.Trace.breaksOff`
    * `Parse.expression_eq_done_of_unfinished`
    * `Parse.State.expression_failed`
-/

namespace LetLang

theorem TokenStream.Reads.eq_skip
    {stream after : TokenStream}
    {tokens : List Token}
    (hReads : stream.Reads tokens after) :
    after = stream.skip tokens.length := by
  rcases after with ⟨rest, endless, position⟩
  have hRest : stream.rest.drop tokens.length = rest := by
    rw [hReads.rest_eq]
    simp
  simp only [skip, hRest, ← hReads.endless_eq,
    ← hReads.position_eq]

namespace Parse

open TokenStream

------------------------------------------------------------
-- Breaking Off
------------------------------------------------------------

/-
  Tokens are read up to a place where an operand should
  start, but does not. The place is kept if it is empty; a
  token that starts no operand is passed.
-/
inductive BreaksOff
    (stream : TokenStream)
    (tokens : List Token) :
    Obstacle → TokenStream → Prop where
  | missing
      {place : TokenStream}
      (hReads : stream.Reads tokens place)
      (hCurrent : place.current = none) :
      BreaksOff stream tokens .missing place
  | unusable
      {token : Token}
      {place : TokenStream}
      (hReads : stream.Reads tokens place)
      (hCurrent : place.current = some token)
      (hKind : token.kind.startsOperand = false) :
      BreaksOff stream tokens (.unusable token)
        place.advance

/- What was read before is read as well. -/
theorem BreaksOff.of_reads
    {stream middle after : TokenStream}
    {tokens later : List Token}
    {obstacle : Obstacle}
    (hReads : stream.Reads tokens middle)
    (hBreaks : BreaksOff middle later obstacle after) :
    BreaksOff stream (tokens ++ later) obstacle after := by
  cases hBreaks with
  | missing hLater hCurrent =>
      exact .missing (hReads.trans hLater) hCurrent
  | unusable hLater hCurrent hKind =>
      exact .unusable (hReads.trans hLater) hCurrent hKind

/-
  What is behind an obstacle that stands some places ahead:
  no token behind a missing one, and behind any other what
  comes after it.
-/
def behind
    (stream : TokenStream)
    (place : Nat) : Obstacle → Option Token
  | .missing => none
  | .unusable _ => stream.get? (place + 1)

theorem BreaksOff.current_eq
    {stream after : TokenStream}
    {tokens : List Token}
    {obstacle : Obstacle}
    (hBreaks : BreaksOff stream tokens obstacle after) :
    after.current = behind stream tokens.length obstacle := by
  cases hBreaks with
  | missing hReads hCurrent => exact hCurrent
  | @unusable token place hReads hCurrent hKind =>
      have hPlace : place = stream.skip tokens.length :=
        hReads.eq_skip
      subst hPlace
      rw [current_advance, ← get?_one, get?_skip]
      rfl

/- An unfinished expression behind another one breaks off. -/
theorem BreaksOff.join
    {stream middle after : TokenStream}
    {read later : Unfinished}
    {atom operator : Token}
    {level : Level}
    {obstacle : Obstacle}
    (hReads : stream.Reads (read.tokens ++ [atom]) middle)
    (hBreaks :
      BreaksOff middle (operator :: later.tokens) obstacle
        after)
    (hAtom : atom.IsAtom)
    (hLevel : operator.kind.level? = some level) :
    BreaksOff stream (read.join hAtom hLevel later).tokens
      obstacle after := by
  have hWhole := hBreaks.of_reads hReads
  rw [List.append_assoc] at hWhole
  rw [Unfinished.tokens_join]
  exact hWhole

/- A token that is no operand by itself starts none. -/
theorem startsOperand_of_leaf_eq_failed
    {token : Token}
    {failure : Failure}
    (hUnary : isUnary token.kind = false)
    (hLeaf : leaf token = .failed failure) :
    token.kind.startsOperand = false := by
  unfold leaf at hLeaf
  cases hKind : token.kind with
  | int =>
      simp only [hKind] at hLeaf
      split at hLeaf <;> cases hLeaf
  | ident => simp [hKind] at hLeaf
  | trueWord => simp [hKind] at hLeaf
  | falseWord => simp [hKind] at hLeaf
  | bang => simp [hKind, isUnary] at hUnary
  | minus => simp [hKind, isUnary] at hUnary
  | _ => rfl

------------------------------------------------------------
-- Operators that Wait
------------------------------------------------------------

/-
  The forms of the operators that wait behind operators with
  two operands and signs, outermost first.
-/
def waitingForms
    (levels : List Level)
    (signs : List Token) : List OperatorForm :=
  List.replicate (Level.waiting levels).length .binary
    ++ List.replicate signs.length .unary

/- An operator waits before tighter ones. -/
theorem waitingForms_cons
    {level : Level}
    {later : List Level}
    (hTighter : ∀ other ∈ later, level < other)
    (signs : List Token) :
    waitingForms (level :: later) signs =
      .binary :: waitingForms later signs := by
  unfold waitingForms
  rw [Level.waiting_cons_of_lt hTighter]
  rfl

/- And not behind which one comes that is no tighter. -/
theorem waitingForms_append
    {levels : List Level}
    {level : Level}
    (hLooser : ∀ other ∈ levels, level ≤ other)
    (later : List Level)
    (signs : List Token) :
    waitingForms (levels ++ level :: later) signs =
      waitingForms (level :: later) signs := by
  unfold waitingForms
  rw [Level.waiting_append hLooser]

------------------------------------------------------------
-- Tasks that Break Off
------------------------------------------------------------

/-
  What it means for a task to break off with a failure. The
  first token of an operand has been passed already. A climb
  has got to an operator that it takes.
-/
def Task.BreaksOff
    (stream : TokenStream)
    (failure : Failure)
    (after : TokenStream) : Task → Prop
  | .expression floor =>
      ∃ read : Unfinished,
        read.Above floor ∧
          Parse.BreaksOff stream read.tokens
            failure.obstacle after ∧
          failure.waiting =
            waitingForms read.levels read.signs
  | .operand token =>
      (token.kind.startsOperand = false ∧
          failure = ⟨.unusable token, []⟩ ∧
          after = stream) ∨
        (isUnary token.kind = true ∧
          ∃ read : Unfinished,
            read.segments = [] ∧
              Parse.BreaksOff stream read.signs
                failure.obstacle after ∧
              failure.waiting =
                .unary :: waitingForms [] read.signs)
  | .climb floor _ =>
      ∃ operator level, ∃ later : Unfinished,
        stream.current = some operator ∧
          operator.kind.level? = some level ∧
          floor < level ∧
          later.Above floor ∧
          Parse.BreaksOff stream (operator :: later.tokens)
            failure.obstacle after ∧
          failure.waiting =
            waitingForms (level :: later.levels) later.signs

/-
  A task that fails breaks off so. The induction is on what
  the task does: the right operand of an operator is above
  its level, and an operator that comes behind the operand
  is not. So what has been read before such an operator does
  not wait.
-/
theorem Trace.breaksOff
    {task : Task}
    {stream after : TokenStream}
    {attempt : Attempt}
    (hTrace : Trace task stream attempt after)
    {failure : Failure}
    (hFailed : attempt = .failed failure) :
    task.BreaksOff stream failure after := by
  induction hTrace generalizing failure with
  | @missing floor stream hCurrent =>
      cases hFailed
      exact
        ⟨.nil, nofun, .missing (Reads.refl stream) hCurrent,
          rfl⟩
  | @expressionDone floor token left attempt stream middle
      after hCurrent hOperand hClimb ihOperand ihClimb =>
      rcases hOperand.sound rfl with
        ⟨tokens, hYield, hReads, hCanonical, hNot⟩
      rcases
        hCanonical.exists_unfinished
          (Expr.rootAbove_of_not_isInfix hNot .unary) with
        ⟨read, atom, hAtom, hRead, hTokens⟩
      rcases ihClimb hFailed with
        ⟨operator, level, later, -, hLevel, hAbove, hLater,
          hBreaks, hWaiting⟩
      have hNone : read.levels = [] := by
        unfold Unfinished.levels
        rw [hRead.segments_eq_nil]
        rfl
      have hFirst :=
        reads_of_current hCurrent
          (kind_ne_eof_of_operand hOperand)
      have hWhole := hFirst.cons hReads
      rw [← hYield, hTokens] at hWhole
      refine
        ⟨read.join hAtom hLevel later, ?_,
          hBreaks.join hWhole hAtom hLevel, ?_⟩
      · apply read.above_join hAtom hLevel later _ hAbove
          hLater
        intro other hMem
        rw [hNone] at hMem
        cases hMem
      · rw [hWaiting, Unfinished.levels_join, hNone]
        rfl
  | @expressionFailed floor token failure stream after
      hCurrent hOperand ihOperand =>
      rcases ihOperand hFailed with
        ⟨hKind, hFailure, hAfter⟩ |
          ⟨hUnary, read, hNone, hBreaks, hWaiting⟩
      · rw [hFailure, hAfter]
        exact
          ⟨.nil, nofun,
            .unusable (Reads.refl stream) hCurrent hKind,
            rfl⟩
      · have hSigns :
            ∀ sign ∈ token :: read.signs,
              isUnary sign.kind = true := by
          rw [List.forall_mem_cons]
          exact ⟨hUnary, read.isUnary⟩
        have hFirst :=
          reads_of_current hCurrent
            (kind_ne_eof_of_isUnary hUnary)
        have hWhole := hBreaks.of_reads hFirst
        exact ⟨.ofSigns hSigns, nofun, hWhole, hWaiting⟩
  | expressionFatal hCurrent hOperand => cases hFailed
  | leaf hUnary =>
      have hKind :=
        startsOperand_of_leaf_eq_failed hUnary hFailed
      have hFailure := eq_of_leaf_eq_failed hFailed
      exact Or.inl ⟨hKind, hFailure, rfl⟩
  | prefixDone hUnary hRight => cases hFailed
  | @prefixFailed token inner stream after hUnary hRight
      ihRight =>
      cases hFailed
      rcases ihRight rfl with
        ⟨read, hAbove, hBreaks, hWaiting⟩
      have hNone := hAbove.segments_eq_nil
      refine Or.inr ⟨hUnary, read, hNone, ?_, ?_⟩
      · rw [Unfinished.tokens, hNone] at hBreaks
        exact hBreaks
      · simp only [Failure.under, hWaiting,
          Unfinished.levels, hNone, List.map_nil]
  | prefixFatal hUnary hRight => cases hFailed
  | stop hStop => cases hFailed
  | @climbDone floor level token left right attempt stream
      middle after hCurrent hLevel hAbove hRight hClimb
      ihRight ihClimb =>
      rcases hRight.sound rfl with
        ⟨hReads, ⟨hCanonical, hRoot⟩, hStop⟩
      rcases hCanonical.exists_unfinished hRoot with
        ⟨read, atom, hAtom, hRead, hTokens⟩
      rcases ihClimb hFailed with
        ⟨operator, own, later, hOperator, hOwn, hOwnAbove,
          hLater, hBreaks, hWaiting⟩
      -- The operator behind the right operand is no tighter.
      have hLoose : own ≤ level := by
        rw [bindsAbove_of_current hOperator,
          Token.Kind.bindsAbove_eq_false_iff hOwn] at hStop
        exact hStop
      have hLooser :
          ∀ other ∈ level :: read.levels,
            own ≤ other := by
        rw [List.forall_mem_cons]
        refine ⟨hLoose, ?_⟩
        intro other hMem
        exact Level.le_of_lt
          (Level.lt_of_le_of_lt hLoose (hRead other hMem))
      have hFirst :=
        reads_of_current hCurrent
          (kind_ne_eof_of_level? hLevel)
      rw [hTokens] at hReads
      refine
        ⟨token, level, read.join hAtom hOwn later, hCurrent,
          hLevel, hAbove, ?_,
          (hBreaks.join hReads hAtom hOwn).of_reads hFirst,
          ?_⟩
      · apply read.above_join hAtom hOwn later _ hOwnAbove
          hLater
        intro other hMem
        exact Level.lt_of_lt_of_le hAbove
          (Level.le_of_lt (hRead other hMem))
      · rw [hWaiting, Unfinished.levels_join,
          ← List.cons_append, waitingForms_append hLooser]
        rfl
  | @climbFailed floor level token left inner stream after
      hCurrent hLevel hAbove hRight ihRight =>
      cases hFailed
      rcases ihRight rfl with
        ⟨read, hRead, hBreaks, hWaiting⟩
      have hFirst :=
        reads_of_current hCurrent
          (kind_ne_eof_of_level? hLevel)
      refine
        ⟨token, level, read, hCurrent, hLevel, hAbove, ?_,
          hBreaks.of_reads hFirst, ?_⟩
      · intro other hMem
        exact Level.lt_of_lt_of_le hAbove
          (Level.le_of_lt (hRead other hMem))
      · rw [waitingForms_cons hRead]
        exact congrArg (OperatorForm.binary :: ·) hWaiting
  | climbFatal hCurrent hLevel hAbove hRight =>
      cases hFailed

------------------------------------------------------------
-- Finishing
------------------------------------------------------------

/-
  Any atom finishes an unfinished expression: the tokens of
  both are parsed, and nothing is left of them.
-/
theorem expression_eq_done_of_unfinished
    {read : Unfinished}
    {floor : Level}
    (hAbove : read.Above floor)
    {atom : Token}
    (hAtom : atom.IsAtom) :
    ∃ expr after,
      expression floor (ofTokens (read.tokens ++ [atom])) =
          (.done expr, after) ∧
        after.rest = [] := by
  rcases Unfinished.exists_tree hAbove hAtom with
    ⟨expr, hCanonical, hYield⟩
  have hReads := reads_ofTokens (read.tokens ++ [atom]) []
  rw [List.append_nil, ← hYield] at hReads
  have hDone :=
    expression_eq_done_iff.mpr ⟨hReads, hCanonical, rfl⟩
  rw [← hYield]
  exact ⟨expr, _, hDone, rfl⟩

------------------------------------------------------------
-- Failed Expressions of a State
------------------------------------------------------------

/-
  An expression above a level for which an error is raised
  has broken off: an unfinished expression above the level
  has been read, which any atom would finish, and then no
  token, or one that starts no operand. The place behind is
  current. With the raised error, the log goes on with the
  chain of the obstacle, of the signs at the end of what has
  been read, and of the operators that are looser than all
  later ones.
-/
theorem State.expression_failed
    {state after : State}
    {floor : Level}
    {raised : Diagnostic}
    (h : state.expression floor = (.failed raised, after)) :
    ∃ (read : Unfinished) (obstacle : Obstacle),
      read.Above floor ∧
        (∀ atom : Token, atom.IsAtom →
          ∃ expr last,
            Parse.expression floor
                (ofTokens (read.tokens ++ [atom])) =
              (.done expr, last) ∧
              last.rest = []) ∧
        BreaksOff state.stream read.tokens obstacle
          after.stream ∧
        after.stream.current =
          behind state.stream read.tokens.length obstacle ∧
        (after.log.push raised).toList =
          state.log.toList
            ++ Diagnostic.chain state.log.size
              (obstacle.error
                :: (List.replicate read.signs.length
                    (.operandFailed .unary)
                  ++ List.replicate
                    (Level.waiting read.levels).length
                    (.operandFailed .binary))) := by
  rcases State.exists_failure h with
    ⟨failure, hTrace, hLog⟩
  rcases hTrace.breaksOff rfl with
    ⟨read, hAbove, hBreaks, hWaiting⟩
  refine
    ⟨read, failure.obstacle, hAbove, ?_, hBreaks,
      hBreaks.current_eq, ?_⟩
  · intro atom hAtom
    exact expression_eq_done_of_unfinished hAbove hAtom
  · rw [hLog, Failure.errors, hWaiting]
    simp [waitingForms]

/-
  A sign, and operators of which the loosest and the last
  are still waiting.
-/
theorem State.expression_failed_operators :
    let state :=
      State.ofStream (.ofSource "1 + 2 * 3 < 4 + - ;")
    ∃ after raised,
      state.expression .lowest = (.failed raised, after) ∧
        after.log.toList.map Diagnostic.error =
          [.noOperand ⟨.semicolon, ";"⟩,
            .operandFailed .unary,
            .operandFailed .binary] ∧
        raised = ⟨.operandFailed .binary, some 2⟩ ∧
        ∃ (read : Unfinished) (obstacle : Obstacle),
          read.Above .lowest ∧
            BreaksOff state.stream read.tokens obstacle
              after.stream ∧
            (after.log.push raised).toList =
              Diagnostic.chain 0
                (obstacle.error
                  :: (List.replicate read.signs.length
                      (.operandFailed .unary)
                    ++ List.replicate
                      (Level.waiting read.levels).length
                      (.operandFailed .binary))) := by
  intro state
  have hFailed :
      state.expression .lowest =
        (.failed ⟨.operandFailed .binary, some 2⟩,
          (state.expression .lowest).2) :=
    Prod.ext (by decide +kernel) rfl
  rcases State.expression_failed hFailed with
    ⟨read, obstacle, hAbove, -, hBreaks, -, hLog⟩
  exact
    ⟨_, _, hFailed, by decide +kernel, rfl, read, obstacle,
      hAbove, hBreaks, hLog⟩

end Parse

end LetLang

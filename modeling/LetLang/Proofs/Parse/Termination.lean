import LetLang.Proofs.Parse.Progress

/-
  Termination: the parser comes to an end on every stream,
  also on one that goes on without end.

  The functions of the expression parser call each other,
  and a program is parsed in rounds; a statement has no loop
  of its own. Calls and rounds are repeated here with a
  bound on them: where the bound is too small, there is no
  result. Operators are listed tokens, so a call that is
  nested in another one has less to do; and every round
  passes a listed place. So all of it is bounded by the
  number of the listed places.

  Key definitions include:
    * `Parse.Task.resultWithin`
    * `Parse.programWithin`

  Main declarations:
    * `Parse.Trace.resultWithin_eq`
    * `Parse.Course.programWithin_eq`
-/

namespace LetLang

namespace Parse

------------------------------------------------------------
-- Nested Calls
------------------------------------------------------------

/- Carry on after a result, if there is any. -/
def andThenWithin
    (attempted : Option (Attempt × TokenStream))
    (next :
      Expr → TokenStream → Option (Attempt × TokenStream)) :
    Option (Attempt × TokenStream) :=
  match attempted with
  | none => none
  | some (.done result, after) => next result after
  | some (.failed failure, after) =>
      some (.failed failure, after)
  | some (.fatal fault, after) => some (.fatal fault, after)

/-
  What comes of a task if calls are nested in it to a depth,
  and nothing if that is not enough. To go on with the next
  operator counts as a nested call.
-/
def Task.resultWithin :
    Nat → Task → TokenStream →
      Option (Attempt × TokenStream)
  | 0, _, _ => none
  | depth + 1, .expression floor, stream =>
      match stream.current with
      | none => some (.failed ⟨.missing, []⟩, stream)
      | some token =>
          andThenWithin
            (resultWithin depth (.operand token)
              stream.advance)
            (fun left =>
              resultWithin depth (.climb floor left))
  | depth + 1, .operand token, stream =>
      if isUnary token.kind then
        andThenWithin
          ((resultWithin depth (.expression .unary)
            stream).map (under .unary))
          (fun right after =>
            some (.done (.prefixOp token right), after))
      else
        some (leaf token, stream)
  | depth + 1, .climb floor left, stream =>
      match stream.current with
      | none => some (.done left, stream)
      | some token =>
          match token.kind.level? with
          | none => some (.done left, stream)
          | some level =>
              if floor < level then
                andThenWithin
                  ((resultWithin depth (.expression level)
                    stream.advance).map (under .binary))
                  (fun right =>
                    resultWithin depth
                      (.climb floor
                        (.infixOp token left right)))
              else
                some (.done left, stream)

theorem resultWithin_of_stop
    {floor : Level}
    {stream : TokenStream}
    (hStop : stream.bindsAbove floor = false)
    (depth : Nat)
    (left : Expr) :
    Task.resultWithin (depth + 1) (.climb floor left)
        stream =
      some (.done left, stream) := by
  unfold Task.resultWithin
  cases hCurrent : stream.current with
  | none => rfl
  | some token =>
      have hBelow : token.kind.bindsAbove floor = false := by
        simpa [TokenStream.bindsAbove, hCurrent] using hStop
      unfold Token.Kind.bindsAbove at hBelow
      cases hLevel : token.kind.level? with
      | none => simp [hLevel]
      | some level =>
          have hNot : ¬ floor < level := by
            simpa [hLevel] using hBelow
          simp [hLevel, hNot]

/- A task leaves no more places than there were. -/
theorem Trace.length_le
    {task : Task}
    {stream after : TokenStream}
    {attempt : Attempt}
    (hTrace : Trace task stream attempt after) :
    after.rest.length ≤ stream.rest.length :=
  hTrace.later.suffix.length_le

/- The operand of a prefix operator is less to do. -/
theorem effort_right_lt
    {token : Token}
    {stream : TokenStream}
    (hUnary : isUnary token.kind = true)
    {depth : Nat}
    (hDepth :
      (Task.operand token).effort stream < depth + 1) :
    (Task.expression .unary).effort stream < depth := by
  simp only [Task.effort, hUnary, if_true] at hDepth ⊢
  omega

/-
  What comes of a task is there if the depth exceeds what
  there is to do. The parts of a task have less to do.
-/
theorem Trace.resultWithin_eq
    {task : Task}
    {stream after : TokenStream}
    {attempt : Attempt}
    (hTrace : Trace task stream attempt after)
    {depth : Nat}
    (hDepth : task.effort stream < depth) :
    task.resultWithin depth stream =
      some (attempt, after) := by
  induction depth generalizing task stream after attempt with
  | zero => exact (Nat.not_lt_zero _ hDepth).elim
  | succ depth ih =>
      cases hTrace with
      | missing hCurrent =>
          simp only [Task.resultWithin, hCurrent]
      | @expressionDone floor token left attempt stream
          middle after hCurrent hOperand hClimb =>
          have hLess := effort_operand_lt hCurrent
          have hMiddle := hOperand.length_le
          have hAdvance := stream.length_advance_le
          simp only [Task.effort] at hDepth
          have hFirst := ih hOperand (by omega)
          have hLater :=
            ih hClimb (by simp only [Task.effort]; omega)
          simp only [Task.resultWithin, hCurrent, hFirst,
            andThenWithin]
          exact hLater
      | @expressionFailed floor token failure stream after
          hCurrent hOperand =>
          have hLess := effort_operand_lt hCurrent
          simp only [Task.effort] at hDepth
          have hFirst := ih hOperand (by omega)
          simp only [Task.resultWithin, hCurrent, hFirst,
            andThenWithin]
      | @expressionFatal floor token fault stream after
          hCurrent hOperand =>
          have hLess := effort_operand_lt hCurrent
          simp only [Task.effort] at hDepth
          have hFirst := ih hOperand (by omega)
          simp only [Task.resultWithin, hCurrent, hFirst,
            andThenWithin]
      | leaf hUnary =>
          simp only [Task.resultWithin, hUnary]
          rfl
      | prefixDone hUnary hRight =>
          have hOperand :=
            ih hRight (effort_right_lt hUnary hDepth)
          simp only [Task.resultWithin, hUnary, hOperand]
          rfl
      | prefixFailed hUnary hRight =>
          have hOperand :=
            ih hRight (effort_right_lt hUnary hDepth)
          simp only [Task.resultWithin, hUnary, hOperand]
          rfl
      | prefixFatal hUnary hRight =>
          have hOperand :=
            ih hRight (effort_right_lt hUnary hDepth)
          simp only [Task.resultWithin, hUnary, hOperand]
          rfl
      | stop hStop => exact resultWithin_of_stop hStop _ _
      | @climbDone floor level token left right attempt
          stream middle after hCurrent hLevel hAbove hRight
          hClimb =>
          have hShorter :=
            TokenStream.length_advance_lt hCurrent
              (kind_ne_eof_of_level? hLevel)
          have hMiddle := hRight.length_le
          simp only [Task.effort] at hDepth
          have hOperand :=
            ih hRight (by simp only [Task.effort]; omega)
          have hLater :=
            ih hClimb (by simp only [Task.effort]; omega)
          simp only [Task.resultWithin, hCurrent, hLevel,
            if_pos hAbove, hOperand]
          exact hLater
      | @climbFailed floor level token left failure stream
          after hCurrent hLevel hAbove hRight =>
          have hShorter :=
            TokenStream.length_advance_lt hCurrent
              (kind_ne_eof_of_level? hLevel)
          simp only [Task.effort] at hDepth
          have hOperand :=
            ih hRight (by simp only [Task.effort]; omega)
          simp only [Task.resultWithin, hCurrent, hLevel,
            if_pos hAbove, hOperand]
          rfl
      | @climbFatal floor level token left fault stream
          after hCurrent hLevel hAbove hRight =>
          have hShorter :=
            TokenStream.length_advance_lt hCurrent
              (kind_ne_eof_of_level? hLevel)
          simp only [Task.effort] at hDepth
          have hOperand :=
            ih hRight (by simp only [Task.effort]; omega)
          simp only [Task.resultWithin, hCurrent, hLevel,
            if_pos hAbove, hOperand]
          rfl

------------------------------------------------------------
-- Rounds
------------------------------------------------------------

/-
  What comes of a program if there are at most a number of
  rounds, where the last one only finds that there is nothing
  to attempt; and nothing if that is not enough.
-/
def programWithin :
    Nat → State → Option (Except Fault Program × State)
  | 0, _ => none
  | rounds + 1, state =>
      if state.isFinished then
        some (.ok [], state)
      else
        match statement state with
        | (.done stmt, after) =>
            (programWithin rounds after.advance).map
              (fun later =>
                (later.1.map (stmt :: ·), later.2))
        | (.failed raised, after) =>
            programWithin rounds
              (after.record raised).advance
        | (.fatal fault, after) =>
            some (.error fault, after)

theorem length_lt_of_attempt
    {state after : State}
    {outcome : Outcome Diagnostic Stmt}
    (hUnfinished : state.isFinished = false)
    (hAttempt : statement state = (outcome, after)) :
    after.advance.stream.rest.length <
      state.stream.rest.length := by
  have hLess := length_attempt_lt hUnfinished
  rw [hAttempt] at hLess
  exact hLess

/-
  What comes of a program is there if there may be a round
  for each listed place and one more.
-/
theorem Course.programWithin_eq
    {state final : State}
    {result : Except Fault Program}
    (hCourse : Course state result final)
    {rounds : Nat}
    (hRounds : state.stream.rest.length < rounds) :
    programWithin rounds state = some (result, final) := by
  induction rounds generalizing state result final with
  | zero => exact (Nat.not_lt_zero _ hRounds).elim
  | succ rounds ih =>
      have hShorter
          {outcome : Outcome Diagnostic Stmt}
          {after : State}
          (hUnfinished : state.isFinished = false)
          (hAttempt : statement state = (outcome, after)) :
          after.advance.stream.rest.length < rounds :=
        Nat.lt_of_lt_of_le
          (length_lt_of_attempt hUnfinished hAttempt)
          (Nat.lt_succ_iff.mp hRounds)
      unfold programWithin
      cases hCourse with
      | finished hFinished => rw [if_pos hFinished]
      | done hUnfinished hAttempt hLater =>
          have hRest :=
            ih hLater (hShorter hUnfinished hAttempt)
          simp only [hUnfinished, hAttempt, hRest]
          rfl
      | doneFatal hUnfinished hAttempt hLater =>
          have hRest :=
            ih hLater (hShorter hUnfinished hAttempt)
          simp only [hUnfinished, hAttempt, hRest]
          rfl
      | @failed state after final raised result hUnfinished
          hAttempt hLater =>
          have hLess := hShorter hUnfinished hAttempt
          have hRest := ih hLater hLess
          simp only [hUnfinished, hAttempt, hRest]
          rfl
      | fatal hUnfinished hAttempt =>
          simp only [hUnfinished, hAttempt]
          rfl

end Parse

end LetLang

import LetLang.Parse.Expression
import LetLang.Proofs.Parse.Attempt
import LetLang.Proofs.Tree.Canonical

/-
  Traces of the expression parser: one constructor for every
  way in which a call of one of its three functions ends.

  A trace says all that a call does, so a fact about the
  parser is proved by induction on traces and never by
  opening the functions again.

  Key definitions include:
    * `Parse.Task`
    * `Parse.Task.result`
    * `Parse.Trace`
    * `Parse.Task.Traced`

  Main declarations:
    * `Parse.traced`
    * `Parse.trace_expression`
    * `Parse.Trace.result_eq`
    * `Parse.Trace.eq_of_isMark`
-/

namespace LetLang

namespace Parse

------------------------------------------------------------
-- Tasks
------------------------------------------------------------

/- A call of one of the functions of the parser. -/
inductive Task where
  | expression (floor : Level)
  | operand (token : Token)
  | climb (floor : Level) (left : Expr)

namespace Task

/- What comes of a task on a stream. -/
def result
    (stream : TokenStream) : Task → Attempt × TokenStream
  | .expression floor => Parse.expression floor stream
  | .operand token => Parse.operand token stream
  | .climb floor left => Parse.climb floor left stream

/- A bound on how much there is to do. -/
def effort
    (stream : TokenStream) : Task → Nat
  | .expression _ => 3 * stream.rest.length + 2
  | .operand token =>
      if isUnary token.kind then
        3 * stream.rest.length + 3
      else
        1
  | .climb _ _ => 3 * stream.rest.length + 1

end Task

------------------------------------------------------------
-- Traces
------------------------------------------------------------

/-
  A task on a stream ends in an attempt and leaves a stream.
-/
inductive Trace :
    Task → TokenStream → Attempt → TokenStream → Prop where
  | missing
      {floor : Level}
      {stream : TokenStream}
      (hCurrent : stream.current = none) :
      Trace (.expression floor) stream
        (.failed ⟨.missing, []⟩) stream
  | expressionDone
      {floor : Level}
      {token : Token}
      {left : Expr}
      {attempt : Attempt}
      {stream middle after : TokenStream}
      (hCurrent : stream.current = some token)
      (hOperand :
        Trace (.operand token) stream.advance
          (.done left) middle)
      (hClimb :
        Trace (.climb floor left) middle attempt after) :
      Trace (.expression floor) stream attempt after
  | expressionFailed
      {floor : Level}
      {token : Token}
      {failure : Failure}
      {stream after : TokenStream}
      (hCurrent : stream.current = some token)
      (hOperand :
        Trace (.operand token) stream.advance
          (.failed failure) after) :
      Trace (.expression floor) stream
        (.failed failure) after
  | expressionFatal
      {floor : Level}
      {token : Token}
      {fault : Fault}
      {stream after : TokenStream}
      (hCurrent : stream.current = some token)
      (hOperand :
        Trace (.operand token) stream.advance
          (.fatal fault) after) :
      Trace (.expression floor) stream
        (.fatal fault) after
  | leaf
      {token : Token}
      {stream : TokenStream}
      (hUnary : isUnary token.kind = false) :
      Trace (.operand token) stream (leaf token) stream
  | prefixDone
      {token : Token}
      {right : Expr}
      {stream after : TokenStream}
      (hUnary : isUnary token.kind = true)
      (hRight :
        Trace (.expression .unary) stream
          (.done right) after) :
      Trace (.operand token) stream
        (.done (.prefixOp token right)) after
  | prefixFailed
      {token : Token}
      {failure : Failure}
      {stream after : TokenStream}
      (hUnary : isUnary token.kind = true)
      (hRight :
        Trace (.expression .unary) stream
          (.failed failure) after) :
      Trace (.operand token) stream
        (.failed (failure.under .unary)) after
  | prefixFatal
      {token : Token}
      {fault : Fault}
      {stream after : TokenStream}
      (hUnary : isUnary token.kind = true)
      (hRight :
        Trace (.expression .unary) stream
          (.fatal fault) after) :
      Trace (.operand token) stream (.fatal fault) after
  | stop
      {floor : Level}
      {left : Expr}
      {stream : TokenStream}
      (hStop : stream.bindsAbove floor = false) :
      Trace (.climb floor left) stream (.done left) stream
  | climbDone
      {floor level : Level}
      {token : Token}
      {left right : Expr}
      {attempt : Attempt}
      {stream middle after : TokenStream}
      (hCurrent : stream.current = some token)
      (hLevel : token.kind.level? = some level)
      (hAbove : floor < level)
      (hRight :
        Trace (.expression level) stream.advance
          (.done right) middle)
      (hClimb :
        Trace (.climb floor (.infixOp token left right))
          middle attempt after) :
      Trace (.climb floor left) stream attempt after
  | climbFailed
      {floor level : Level}
      {token : Token}
      {left : Expr}
      {failure : Failure}
      {stream after : TokenStream}
      (hCurrent : stream.current = some token)
      (hLevel : token.kind.level? = some level)
      (hAbove : floor < level)
      (hRight :
        Trace (.expression level) stream.advance
          (.failed failure) after) :
      Trace (.climb floor left) stream
        (.failed (failure.under .binary)) after
  | climbFatal
      {floor level : Level}
      {token : Token}
      {left : Expr}
      {fault : Fault}
      {stream after : TokenStream}
      (hCurrent : stream.current = some token)
      (hLevel : token.kind.level? = some level)
      (hAbove : floor < level)
      (hRight :
        Trace (.expression level) stream.advance
          (.fatal fault) after) :
      Trace (.climb floor left) stream (.fatal fault) after

------------------------------------------------------------
-- Every Task Has a Trace
------------------------------------------------------------

theorem kind_ne_eof_of_level?
    {token : Token}
    {level : Level}
    (h : token.kind.level? = some level) :
    token.kind ≠ .eof := by
  intro hEof
  rw [hEof] at h
  cases h

theorem kind_ne_eof_of_isUnary
    {token : Token}
    (h : isUnary token.kind = true) :
    token.kind ≠ .eof := by
  intro hEof
  rw [hEof] at h
  cases h

theorem length_operand_le
    (token : Token)
    (stream : TokenStream) :
    (operand token stream).2.rest.length ≤
      stream.rest.length :=
  (operandBounded token stream).length_le

/- The operand of an expression is less to do. -/
theorem effort_operand_lt
    {stream : TokenStream}
    {token : Token}
    (hCurrent : stream.current = some token) :
    (Task.operand token).effort stream.advance <
      3 * stream.rest.length + 2 := by
  unfold Task.effort
  dsimp only
  split
  · rename_i hUnary
    have hShorter := TokenStream.length_advance_lt hCurrent
      (kind_ne_eof_of_isUnary hUnary)
    omega
  · omega

/- What the parser does on a task is a trace of it. -/
def Task.Traced
    (task : Task)
    (stream : TokenStream) : Prop :=
  Trace task stream
    (task.result stream).1 (task.result stream).2

/- An expression is traced if its two parts are. -/
theorem traced_expression
    {floor : Level}
    {stream : TokenStream}
    (hOperand :
      ∀ token, stream.current = some token →
        (Task.operand token).Traced stream.advance)
    (hClimb :
      ∀ token left middle,
        stream.current = some token →
        operand token stream.advance =
          (.done left, middle) →
        (Task.climb floor left).Traced middle) :
    (Task.expression floor).Traced stream := by
  simp only [Task.Traced, Task.result]
  rw [expression_eq]
  cases hCurrent : stream.current with
  | none => exact .missing hCurrent
  | some token =>
      have hTrace := hOperand token hCurrent
      simp only [Task.Traced, Task.result] at hTrace
      dsimp only
      rcases hResult : operand token stream.advance
        with ⟨left | failure | fault, middle⟩
      · rw [hResult] at hTrace
        exact .expressionDone hCurrent hTrace
          (hClimb token left middle hCurrent hResult)
      · rw [hResult] at hTrace
        exact .expressionFailed hCurrent hTrace
      · rw [hResult] at hTrace
        exact .expressionFatal hCurrent hTrace

/- An operand is traced if what it has below it is. -/
theorem traced_operand
    {token : Token}
    {stream : TokenStream}
    (hRight :
      isUnary token.kind = true →
        (Task.expression .unary).Traced stream) :
    (Task.operand token).Traced stream := by
  simp only [Task.Traced, Task.result]
  rw [operand_eq]
  cases hUnary : isUnary token.kind with
  | false => exact .leaf hUnary
  | true =>
      have hTrace := hRight hUnary
      simp only [Task.Traced, Task.result] at hTrace
      rcases hResult : expression .unary stream
        with ⟨right | failure | fault, after⟩
      · rw [hResult] at hTrace
        exact .prefixDone hUnary hTrace
      · rw [hResult] at hTrace
        exact .prefixFailed hUnary hTrace
      · rw [hResult] at hTrace
        exact .prefixFatal hUnary hTrace

/- A climb is traced if its first round and the rest are. -/
theorem traced_climb
    {floor : Level}
    {left : Expr}
    {stream : TokenStream}
    (hRight :
      ∀ token level,
        stream.current = some token →
        token.kind.level? = some level →
        (Task.expression level).Traced stream.advance)
    (hClimb :
      ∀ token level right middle,
        stream.current = some token →
        token.kind.level? = some level →
        expression level stream.advance =
          (.done right, middle) →
        (Task.climb floor
          (.infixOp token left right)).Traced middle) :
    (Task.climb floor left).Traced stream := by
  simp only [Task.Traced, Task.result]
  rw [climb_eq]
  cases hCurrent : stream.current with
  | none =>
      have hStop : stream.bindsAbove floor = false := by
        simp [TokenStream.bindsAbove, hCurrent]
      exact .stop hStop
  | some token =>
      cases hLevel : token.kind.level? with
      | none =>
          have hStop : stream.bindsAbove floor = false := by
            simp [TokenStream.bindsAbove, hCurrent,
              Token.Kind.bindsAbove, hLevel]
          simp only [hLevel]
          exact .stop hStop
      | some level =>
          by_cases hAbove : floor < level
          · have hTrace :=
              hRight token level hCurrent hLevel
            simp only [Task.Traced, Task.result] at hTrace
            simp only [hLevel, if_pos hAbove]
            rcases hResult :
                expression level stream.advance
              with ⟨right | failure | fault, middle⟩
            · rw [hResult] at hTrace
              exact .climbDone hCurrent hLevel hAbove hTrace
                (hClimb token level right middle
                  hCurrent hLevel hResult)
            · rw [hResult] at hTrace
              exact .climbFailed hCurrent hLevel hAbove
                hTrace
            · rw [hResult] at hTrace
              exact .climbFatal hCurrent hLevel hAbove
                hTrace
          · have hStop :
                stream.bindsAbove floor = false := by
              simp [TokenStream.bindsAbove, hCurrent,
                Token.Kind.bindsAbove, hLevel, hAbove]
            simp only [hLevel, if_neg hAbove]
            exact .stop hStop

/- Every task is traced. The parts of a task are less to do. -/
theorem traced
    (task : Task)
    (stream : TokenStream) :
    task.Traced stream := by
  match task with
  | .expression floor =>
      refine traced_expression ?_ ?_
      · intro token hCurrent
        have hLess := effort_operand_lt hCurrent
        exact traced (.operand token) stream.advance
      · intro token left middle hCurrent hResult
        have hLess : middle.rest.length ≤
            stream.advance.rest.length := by
          have hLe := length_operand_le token stream.advance
          rw [hResult] at hLe
          exact hLe
        have hAdvance := stream.length_advance_le
        exact traced (.climb floor left) middle
  | .operand token =>
      refine traced_operand ?_
      intro hUnary
      exact traced (.expression .unary) stream
  | .climb floor left =>
      refine traced_climb ?_ ?_
      · intro token level hCurrent hLevel
        have hLess := TokenStream.length_advance_lt hCurrent
          (kind_ne_eof_of_level? hLevel)
        exact traced (.expression level) stream.advance
      · intro token level right middle hCurrent hLevel
          hResult
        have hShorter :=
          TokenStream.length_advance_lt hCurrent
            (kind_ne_eof_of_level? hLevel)
        have hLess : middle.rest.length ≤
            stream.advance.rest.length := by
          have hLe :=
            length_expression_le level stream.advance
          rw [hResult] at hLe
          exact hLe
        exact traced
          (.climb floor (.infixOp token left right)) middle
termination_by task.effort stream
decreasing_by
  · exact hLess
  · simp only [Task.effort]
    omega
  · simp [Task.effort, hUnary]
  · simp only [Task.effort]
    omega
  · simp only [Task.effort]
    omega

/- The trace of an expression of which the result is known. -/
theorem trace_expression
    {floor : Level}
    {stream after : TokenStream}
    {attempt : Attempt}
    (h : expression floor stream = (attempt, after)) :
    Trace (.expression floor) stream attempt after := by
  have hTrace := traced (.expression floor) stream
  simp only [Task.Traced, Task.result, h] at hTrace
  exact hTrace

------------------------------------------------------------
-- Every Trace Is What the Parser Does
------------------------------------------------------------

theorem climb_eq_done
    {floor : Level}
    {stream : TokenStream}
    (hStop : stream.bindsAbove floor = false)
    (left : Expr) :
    climb floor left stream = (.done left, stream) := by
  rw [climb_eq]
  unfold TokenStream.bindsAbove Token.Kind.bindsAbove
    at hStop
  cases hCurrent : stream.current with
  | none => rfl
  | some token =>
      simp only [hCurrent, Option.any_some] at hStop
      cases hLevel : token.kind.level? with
      | none => simp only [hLevel]
      | some level =>
          have hNot : ¬ floor < level := by
            simpa [hLevel] using hStop
          simp only [hLevel, if_neg hNot]

/- A trace determines the result of its task. -/
theorem Trace.result_eq
    {task : Task}
    {stream after : TokenStream}
    {attempt : Attempt}
    (hTrace : Trace task stream attempt after) :
    task.result stream = (attempt, after) := by
  induction hTrace with
  | missing hCurrent =>
      simp only [Task.result]
      rw [expression_eq, hCurrent]
  | expressionDone hCurrent hOperand hClimb ihOperand
      ihClimb =>
      simp only [Task.result] at *
      rw [expression_eq, hCurrent]
      simp only [ihOperand]
      exact ihClimb
  | expressionFailed hCurrent hOperand ihOperand =>
      simp only [Task.result] at *
      rw [expression_eq, hCurrent]
      simp only [ihOperand]
      rfl
  | expressionFatal hCurrent hOperand ihOperand =>
      simp only [Task.result] at *
      rw [expression_eq, hCurrent]
      simp only [ihOperand]
      rfl
  | leaf hUnary =>
      simp only [Task.result]
      rw [operand_eq, hUnary]
      rfl
  | prefixDone hUnary hRight ihRight =>
      simp only [Task.result] at *
      rw [operand_eq, if_pos hUnary, ihRight]
      rfl
  | prefixFailed hUnary hRight ihRight =>
      simp only [Task.result] at *
      rw [operand_eq, if_pos hUnary, ihRight]
      rfl
  | prefixFatal hUnary hRight ihRight =>
      simp only [Task.result] at *
      rw [operand_eq, if_pos hUnary, ihRight]
      rfl
  | @stop floor left stream hStop =>
      exact climb_eq_done hStop left
  | climbDone hCurrent hLevel hAbove hRight hClimb ihRight
      ihClimb =>
      simp only [Task.result] at *
      rw [climb_eq, hCurrent]
      simp only [hLevel, if_pos hAbove, ihRight]
      exact ihClimb
  | climbFailed hCurrent hLevel hAbove hRight ihRight =>
      simp only [Task.result] at *
      rw [climb_eq, hCurrent]
      simp only [hLevel, if_pos hAbove, ihRight]
      rfl
  | climbFatal hCurrent hLevel hAbove hRight ihRight =>
      simp only [Task.result] at *
      rw [climb_eq, hCurrent]
      simp only [hLevel, if_pos hAbove, ihRight]
      rfl

------------------------------------------------------------
-- Marks
------------------------------------------------------------

theorem leaf_of_isMark
    {token : Token}
    (h : token.kind.isMark = true) :
    leaf token = .failed ⟨.unusable token, []⟩ := by
  unfold leaf
  cases hKind : token.kind <;>
    rw [hKind] at h <;> first | rfl | cases h

theorem isUnary_of_isMark
    {token : Token}
    (h : token.kind.isMark = true) :
    isUnary token.kind = false := by
  cases hKind : token.kind <;>
    rw [hKind] at h <;> first | rfl | cases h

theorem isMark_of_level?
    {token : Token}
    {level : Level}
    (h : token.kind.level? = some level) :
    token.kind.isMark = false := by
  cases hKind : token.kind <;>
    rw [hKind] at h <;> first | rfl | cases h

/- A mark fails as an operand, and nothing else is passed. -/
theorem Trace.eq_of_isMark
    {token : Token}
    {stream after : TokenStream}
    {attempt : Attempt}
    (hTrace : Trace (.operand token) stream attempt after)
    (h : token.kind.isMark = true) :
    attempt = .failed ⟨.unusable token, []⟩ ∧
      after = stream := by
  have hUnary := isUnary_of_isMark h
  cases hTrace with
  | leaf hLeaf => exact ⟨leaf_of_isMark h, rfl⟩
  | prefixDone hIs hRight =>
      rw [hUnary] at hIs
      cases hIs
  | prefixFailed hIs hRight =>
      rw [hUnary] at hIs
      cases hIs
  | prefixFatal hIs hRight =>
      rw [hUnary] at hIs
      cases hIs

/- So an operand that does not fail is no mark. -/
theorem Trace.isMark_eq_false
    {token : Token}
    {stream after : TokenStream}
    {attempt : Attempt}
    (hTrace : Trace (.operand token) stream attempt after)
    (h : ∀ failure, attempt ≠ .failed failure) :
    token.kind.isMark = false := by
  apply Bool.eq_false_iff.mpr
  intro hMark
  exact h _ (hTrace.eq_of_isMark hMark).1

/- An expression that starts with a mark fails behind it. -/
theorem trace_of_isMark
    {token : Token}
    {stream : TokenStream}
    (hCurrent : stream.current = some token)
    (h : token.kind.isMark = true)
    (floor : Level) :
    Trace (.expression floor) stream
      (.failed ⟨.unusable token, []⟩) stream.advance := by
  apply Trace.expressionFailed hCurrent
  rw [← leaf_of_isMark h]
  exact .leaf (isUnary_of_isMark h)

end Parse

end LetLang

import LetLang.Proofs.Parse.Reads
import LetLang.Proofs.Parse.Recording

/-
  Exactness of the expression parser: an expression is
  parsed exactly where its yield stands, if it is canonical
  above the level asked for and no operator above that level
  follows.

  Soundness goes by induction on traces. What the loop keeps
  is that its left operand is canonical and *settled*: the
  operator that comes next does not bind above its root.
  Completeness goes by induction on the tree, for an
  arbitrary stream after it: parsing the tree's tokens is
  the same as climbing with the tree as left operand.

  Key definitions include:
    * `Expr.Settled`
    * `Parse.Task.Sound`

  Main declarations:
    * `Parse.Trace.sound`
    * `Parse.expression_eq_climb`
    * `Parse.expression_eq_done_iff`
    * `Parse.State.expression_done_iff`
-/

------------------------------------------------------------
-- Where the Next Operator Leaves a Tree Alone
------------------------------------------------------------

namespace LetLang

namespace TokenStream

theorem bindsAbove_of_current
    {stream : TokenStream}
    {token : Token}
    (hCurrent : stream.current = some token)
    (floor : Level) :
    stream.bindsAbove floor =
      token.kind.bindsAbove floor := by
  simp [bindsAbove, hCurrent]

theorem bindsAbove_eq_false_of_le
    {stream : TokenStream}
    {a b : Level}
    (hLe : a ≤ b)
    (h : stream.bindsAbove a = false) :
    stream.bindsAbove b = false := by
  cases hCurrent : stream.current with
  | none => simp [bindsAbove, hCurrent]
  | some token =>
      rw [bindsAbove_of_current hCurrent] at h ⊢
      exact Token.Kind.bindsAbove_eq_false_of_le hLe h

theorem bindsAbove_unary
    (stream : TokenStream) :
    stream.bindsAbove .unary = false := by
  cases hCurrent : stream.current with
  | none => simp [bindsAbove, hCurrent]
  | some token =>
      rw [bindsAbove_of_current hCurrent]
      exact Token.Kind.bindsAbove_unary token.kind

end TokenStream

namespace Expr

/-
  If the root has two operands, the current token of a
  stream does not bind above it, so it is not part of the
  right operand.
-/
def Settled
    (expr : Expr)
    (stream : TokenStream) : Prop :=
  ∀ level ∈ expr.level?, stream.bindsAbove level = false

/- Other roots take no operator that follows. -/
theorem settled_of_not_isInfix
    {expr : Expr}
    (h : ¬ expr.IsInfix)
    (stream : TokenStream) :
    expr.Settled stream := by
  intro level hLevel
  rw [level?_of_not_isInfix h] at hLevel
  cases hLevel

/-
  Before an operator exactly the trees are settled whose
  root binds at least as tightly.
-/
theorem settled_iff_rootAtLeast
    {expr : Expr}
    {stream : TokenStream}
    {token : Token}
    {level : Level}
    (hCurrent : stream.current = some token)
    (hLevel : token.kind.level? = some level) :
    expr.Settled stream ↔ expr.RootAtLeast level := by
  constructor
  · intro h root hRoot
    have hNot := h root hRoot
    rw [TokenStream.bindsAbove_of_current hCurrent,
      Token.Kind.bindsAbove_eq_false_iff hLevel] at hNot
    exact hNot
  · intro h root hRoot
    rw [TokenStream.bindsAbove_of_current hCurrent,
      Token.Kind.bindsAbove_eq_false_iff hLevel]
    exact h root hRoot

end Expr

------------------------------------------------------------
-- Soundness
------------------------------------------------------------

namespace Parse

/-
  What it means for the tree that a task gives and the
  stream that it leaves to be right. A climb owes this only
  for a left operand that is canonical and settled.
-/
def Task.Sound
    (stream : TokenStream)
    (expr : Expr)
    (after : TokenStream) : Task → Prop
  | .expression floor =>
      stream.Reads expr.yield after ∧
        expr.IsCanonicalAbove floor ∧
        after.bindsAbove floor = false
  | .operand token =>
      ∃ tokens,
        expr.yield = token :: tokens ∧
          stream.Reads tokens after ∧
          expr.IsCanonical ∧ ¬ expr.IsInfix
  | .climb floor left =>
      left.IsCanonicalAbove floor → left.Settled stream →
        ∃ tokens,
          expr.yield = left.yield ++ tokens ∧
            stream.Reads tokens after ∧
            expr.IsCanonicalAbove floor ∧
            after.bindsAbove floor = false

/- A token that is an operand by itself is a leaf. -/
theorem sound_leaf
    {token : Token}
    {expr : Expr}
    (h : leaf token = .done expr) :
    expr.yield = [token] ∧ expr.IsCanonical ∧
      ¬ expr.IsInfix := by
  unfold leaf at h
  split at h
  · rename_i hKind
    cases h
    exact ⟨rfl, hKind, fun hInfix => hInfix⟩
  · rename_i hKind
    split at h
    · rename_i value hValue
      cases h
      exact ⟨rfl, ⟨hKind, hValue⟩, fun hInfix => hInfix⟩
    · cases h
  · rename_i hKind
    cases h
    exact ⟨rfl, ⟨Or.inl hKind, rfl⟩, fun hInfix => hInfix⟩
  · rename_i hKind
    cases h
    exact ⟨rfl, ⟨Or.inr hKind, rfl⟩, fun hInfix => hInfix⟩
  · cases h

theorem kind_ne_eof_of_operand
    {token : Token}
    {expr : Expr}
    {stream after : TokenStream}
    (hTrace :
      Trace (.operand token) stream (.done expr) after) :
    token.kind ≠ .eof := by
  have hMark : token.kind.isMark = false :=
    hTrace.isMark_eq_false (fun failure => nofun)
  intro hEof
  rw [hEof] at hMark
  cases hMark

/- Every tree that a trace ends in is right. -/
theorem Trace.sound
    {task : Task}
    {stream after : TokenStream}
    {attempt : Attempt}
    (hTrace : Trace task stream attempt after)
    {expr : Expr}
    (hDone : attempt = .done expr) :
    task.Sound stream expr after := by
  induction hTrace generalizing expr with
  | missing hCurrent => cases hDone
  | @expressionDone floor token left attempt stream middle
      after hCurrent hOperand hClimb ihOperand ihClimb =>
      rcases ihOperand rfl with
        ⟨tokens, hYield, hReads, hCanonical, hRoot⟩
      have hLeft : left.IsCanonicalAbove floor :=
        ⟨hCanonical,
          Expr.rootAbove_of_not_isInfix hRoot floor⟩
      rcases
        ihClimb hDone hLeft
          (Expr.settled_of_not_isInfix hRoot middle)
        with ⟨later, hLater, hReadsLater, hAbove, hStop⟩
      have hFirst :=
        TokenStream.reads_of_current hCurrent
          (kind_ne_eof_of_operand hOperand)
      refine ⟨?_, hAbove, hStop⟩
      rw [hLater, hYield]
      exact hFirst.cons (hReads.trans hReadsLater)
  | expressionFailed hCurrent hOperand => cases hDone
  | expressionFatal hCurrent hOperand => cases hDone
  | @leaf token stream hUnary =>
      rcases sound_leaf hDone with
        ⟨hYield, hCanonical, hRoot⟩
      exact
        ⟨[], hYield, TokenStream.Reads.refl stream,
          hCanonical, hRoot⟩
  | @prefixDone token right stream after hUnary hRight
      ihRight =>
      cases hDone
      rcases ihRight rfl with ⟨hReads, hAbove, hStop⟩
      exact
        ⟨right.yield, rfl, hReads,
          ⟨hUnary, hAbove.1, hAbove.not_isInfix⟩,
          fun hInfix => hInfix⟩
  | prefixFailed hUnary hRight => cases hDone
  | prefixFatal hUnary hRight => cases hDone
  | @stop floor left stream hStop =>
      cases hDone
      intro hLeft hSettled
      exact
        ⟨[], (List.append_nil _).symm,
          TokenStream.Reads.refl stream, hLeft, hStop⟩
  | @climbDone floor level token left right attempt stream
      middle after hCurrent hLevel hAbove hRight hClimb
      ihRight ihClimb =>
      intro hLeft hSettled
      rcases ihRight rfl with
        ⟨hReads, hRightAbove, hStop⟩
      -- The left operand was settled before this operator.
      have hRootLeft : left.RootAtLeast level :=
        (Expr.settled_iff_rootAtLeast hCurrent hLevel).mp
          hSettled
      have hCanonical :
          (Expr.infixOp token left right).IsCanonical :=
        ⟨⟨level, hLevel, hRootLeft, hRightAbove.2⟩,
          hLeft.1, hRightAbove.1⟩
      have hRoot :
          (Expr.infixOp token left right).RootAbove
            floor := by
        intro root hRoot
        cases hLevel.symm.trans hRoot
        exact hAbove
      have hNext :
          (Expr.infixOp token left right).Settled
            middle := by
        intro root hRoot
        cases hLevel.symm.trans hRoot
        exact hStop
      rcases ihClimb hDone ⟨hCanonical, hRoot⟩ hNext with
        ⟨later, hLater, hReadsLater, hDoneAbove, hEnd⟩
      have hFirst :=
        TokenStream.reads_of_current hCurrent
          (kind_ne_eof_of_level? hLevel)
      refine
        ⟨token :: (right.yield ++ later), ?_,
          hFirst.cons (hReads.trans hReadsLater),
          hDoneAbove, hEnd⟩
      rw [hLater]
      simp [Expr.yield]
  | climbFailed hCurrent hLevel hAbove hRight => cases hDone
  | climbFatal hCurrent hLevel hAbove hRight => cases hDone

------------------------------------------------------------
-- Completeness
------------------------------------------------------------

/- A climb takes an operator whose right operand parses. -/
theorem climb_eq_climb
    {floor level : Level}
    {stream middle : TokenStream}
    {token : Token}
    {right : Expr}
    (hCurrent : stream.current = some token)
    (hLevel : token.kind.level? = some level)
    (hAbove : floor < level)
    (hRight :
      expression level stream.advance =
        (.done right, middle))
    (left : Expr) :
    climb floor left stream =
      climb floor (.infixOp token left right) middle := by
  rw [climb_eq]
  simp only [hCurrent, hLevel, if_pos hAbove, hRight]
  rfl

/- An expression climbs from its first operand. -/
theorem expression_eq_climb_of_operand
    {stream after : TokenStream}
    {token : Token}
    {left : Expr}
    (hCurrent : stream.current = some token)
    (hOperand :
      operand token stream.advance = (.done left, after))
    (floor : Level) :
    expression floor stream = climb floor left after := by
  rw [expression_eq]
  simp only [hCurrent, hOperand]
  rfl

/- A canonical leaf is what its token stands for. -/
theorem operand_of_leaf
    {stream after : TokenStream}
    {token : Token}
    {expr : Expr}
    (hUnary : isUnary token.kind = false)
    (hLeaf : leaf token = .done expr)
    (hReads : stream.Reads [token] after) :
    operand token stream.advance = (.done expr, after) := by
  have hAfter : stream.advance = after :=
    (TokenStream.Reads.refl stream.advance).eq_of_reads
      hReads.advance
  rw [operand_eq, hUnary, hLeaf, hAfter]
  rfl

/-
  Parsing the yield of a canonical tree is the same as
  climbing with the tree as left operand, if the tree is
  settled before what follows.
-/
theorem expression_eq_climb
    {expr : Expr}
    (hCanonical : expr.IsCanonical)
    {floor : Level}
    (hRoot : expr.RootAbove floor)
    {stream after : TokenStream}
    (hReads : stream.Reads expr.yield after)
    (hSettled : expr.Settled after) :
    expression floor stream = climb floor expr after := by
  induction expr generalizing floor stream after with
  | ident token =>
      have hKind : token.kind = .ident := hCanonical
      apply expression_eq_climb_of_operand hReads.current_eq
      apply operand_of_leaf _ _ hReads
      · rw [hKind]
        rfl
      · simp [leaf, hKind]
  | int token value =>
      rcases hCanonical with ⟨hKind, hValue⟩
      apply expression_eq_climb_of_operand hReads.current_eq
      apply operand_of_leaf _ _ hReads
      · rw [hKind]
        rfl
      · simp [leaf, hKind, hValue]
  | bool token value =>
      rcases hCanonical with ⟨hKind, rfl⟩
      apply expression_eq_climb_of_operand hReads.current_eq
      apply operand_of_leaf _ _ hReads
      · rcases hKind with hKind | hKind <;>
          rw [hKind] <;> rfl
      · rcases hKind with hKind | hKind <;>
          simp [leaf, hKind, Expr.truth]
  | prefixOp token right ih =>
      rcases hCanonical with ⟨hUnary, hRight, hNot⟩
      have hOperand :
          operand token stream.advance =
            (.done (.prefixOp token right), after) := by
        have hBelow :=
          ih hRight
            (Expr.rootAbove_of_not_isInfix hNot .unary)
            hReads.advance
            (Expr.settled_of_not_isInfix hNot after)
        rw [climb_eq_done after.bindsAbove_unary] at hBelow
        rw [operand_eq, if_pos hUnary, hBelow]
        rfl
      exact expression_eq_climb_of_operand
        hReads.current_eq hOperand floor
  | infixOp token left right ihLeft ihRight =>
      rcases hCanonical with
        ⟨⟨level, hLevel, hLeftRoot, hRightRoot⟩,
          hLeft, hRight⟩
      have hAbove : floor < level := hRoot level hLevel
      have hStop : after.bindsAbove level = false :=
        hSettled level hLevel
      rcases hReads.exists_middle with
        ⟨middle, hReadsLeft, hReadsRight⟩
      have hCurrent := hReadsRight.current_eq
      have hLeftAbove : left.RootAbove floor := by
        intro root hRootLeft
        exact Level.lt_of_lt_of_le hAbove
          (hLeftRoot root hRootLeft)
      have hLeftSettled : left.Settled middle :=
        (Expr.settled_iff_rootAtLeast hCurrent hLevel).mpr
          hLeftRoot
      have hRightSettled : right.Settled after := by
        intro root hRootRight
        exact TokenStream.bindsAbove_eq_false_of_le
          (Level.le_of_lt (hRightRoot root hRootRight))
          hStop
      have hRightDone :
          expression level middle.advance =
            (.done right, after) := by
        rw [ihRight hRight hRightRoot hReadsRight.advance
          hRightSettled]
        exact climb_eq_done hStop right
      rw [ihLeft hLeft hLeftAbove hReadsLeft hLeftSettled]
      exact climb_eq_climb hCurrent hLevel hAbove
        hRightDone left

/-
  An expression is parsed exactly where the yield of a
  canonical tree stands and no operator above the level
  follows.
-/
theorem expression_eq_done_iff
    {floor : Level}
    {stream after : TokenStream}
    {expr : Expr} :
    expression floor stream = (.done expr, after) ↔
      stream.Reads expr.yield after ∧
        expr.IsCanonicalAbove floor ∧
        after.bindsAbove floor = false := by
  constructor
  · intro h
    exact (trace_expression h).sound rfl
  · rintro ⟨hReads, ⟨hCanonical, hRoot⟩, hStop⟩
    have hSettled : expr.Settled after := by
      intro level hLevel
      exact TokenStream.bindsAbove_eq_false_of_le
        (Level.le_of_lt (hRoot level hLevel)) hStop
    rw [expression_eq_climb hCanonical hRoot hReads
      hSettled]
    exact climb_eq_done hStop expr

/-
  An expression that a state gives leaves the log alone, so
  the state after it is known from the tree.
-/
theorem State.expression_eq_done
    {state after : State}
    {floor : Level}
    {expr : Expr} :
    state.expression floor = (.done expr, after) ↔
      Parse.expression floor state.stream =
          (.done expr, after.stream) ∧
        after.log = state.log := by
  rw [State.expression_eq_settle]
  unfold State.settle
  rcases hResult : Parse.expression floor state.stream
    with ⟨left | failure | fault, stream⟩
  · rcases after with ⟨afterStream, log⟩
    simp only [Prod.mk.injEq, State.mk.injEq]
    constructor
    · rintro ⟨hLeft, hStream, hLog⟩
      cases hLeft
      exact ⟨⟨rfl, hStream⟩, hLog.symm⟩
    · rintro ⟨⟨hLeft, hStream⟩, hLog⟩
      cases hLeft
      exact ⟨rfl, hStream, hLog.symm⟩
  · simp
  · simp

/-
  The states in which an expression above a level is parsed,
  and what is left of them: the places before the rest are
  the yield of a canonical tree, and the rest goes on with
  no operator above the level.
-/
theorem State.expression_done_iff
    (state after : State)
    (floor : Level)
    (expr : Expr) :
    state.expression floor = (.done expr, after) ↔
      state.stream.Reads expr.yield after.stream ∧
        after.log = state.log ∧
        expr.IsCanonicalAbove floor ∧
        after.stream.bindsAbove floor = false := by
  rw [State.expression_eq_done, expression_eq_done_iff]
  constructor
  · rintro ⟨⟨hReads, hCanonical, hStop⟩, hLog⟩
    exact ⟨hReads, hLog, hCanonical, hStop⟩
  · rintro ⟨hReads, hLog, hCanonical, hStop⟩
    exact ⟨⟨hReads, hCanonical, hStop⟩, hLog⟩

end Parse

end LetLang

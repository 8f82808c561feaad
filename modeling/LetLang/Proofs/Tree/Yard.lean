import LetLang.Proofs.Tree.Canonical

/-
  The shunting yard: building a tree from operands and
  operators with two stacks.

  Operands go to the output. An operator waits on a stack of
  its own; before it is put there, those on top of it that
  bind at least as tightly are reduced, each with the last
  two operands of the output. In the end all are reduced.

  What is on the stacks is always this: a canonical operand
  at the bottom, and above it one operand for each operator
  that waits. The levels of the operators rise towards the
  top, and each operator binds its operand as the operator
  of a canonical tree does. So the last operand is a
  canonical tree with all the tokens.

  The yard does not look at its operands. It can be run on
  their texts as well, with the same steps.

  Key definitions include:
    * `Operator`
    * `Yard`
    * `Yard.reduceWhile`
    * `Yard.run`
    * `Yard.Stacked`

  Main declarations:
    * `Yard.run_map`
    * `Yard.exists_run_eq`
-/

------------------------------------------------------------
-- Operators
------------------------------------------------------------

namespace LetLang

/- The operators with two operands. -/
inductive Operator where
  | equal
  | notEqual
  | lessThan
  | greaterThan
  | plus
  | minus
  | asterisk
  | slash
  deriving DecidableEq, Repr

namespace Operator

/- The token of an operator. -/
def token : Operator → Token
  | .equal => ⟨.equal, "=="⟩
  | .notEqual => ⟨.notEqual, "!="⟩
  | .lessThan => ⟨.lessThan, "<"⟩
  | .greaterThan => ⟨.greaterThan, ">"⟩
  | .plus => ⟨.plus, "+"⟩
  | .minus => ⟨.minus, "-"⟩
  | .asterisk => ⟨.asterisk, "*"⟩
  | .slash => ⟨.slash, "/"⟩

/- How tightly an operator binds. -/
def level : Operator → Level
  | .equal => .equals
  | .notEqual => .equals
  | .lessThan => .lessGreater
  | .greaterThan => .lessGreater
  | .plus => .sum
  | .minus => .sum
  | .asterisk => .product
  | .slash => .product

/- This is the level that the parser has for its token. -/
theorem level?_token
    (operator : Operator) :
    operator.token.kind.level? = some operator.level := by
  cases operator <;> rfl

end Operator

------------------------------------------------------------
-- The Algorithm
------------------------------------------------------------

/-
  The operands that have been put out and the operators that
  wait, both with the last one first.
-/
structure Yard
    (α : Type) where
  output : List α
  operators : List Operator

namespace Yard

section Algorithm

variable
  {α β : Type}
  (join : Operator → α → α → α)

/-
  Reduce operators from the top of the stack as long as they
  pass a test. An operator takes the last two operands and
  puts out what they are joined to.
-/
def reduceWhile
    (test : Operator → Bool) :
    List α → List Operator → Yard α
  | right :: left :: output, top :: operators =>
      if test top then
        reduceWhile test (join top left right :: output)
          operators
      else
        ⟨right :: left :: output, top :: operators⟩
  | output, operators => ⟨output, operators⟩

/-
  Take in an operator and the operand behind it. The
  operators that bind at least as tightly are reduced first.
-/
def shift
    (yard : Yard α)
    (next : Operator × α) : Yard α :=
  let reduced :=
    reduceWhile join
      (fun top => decide (next.1.level ≤ top.level))
      yard.output yard.operators
  ⟨next.2 :: reduced.output, next.1 :: reduced.operators⟩

/-
  Take in an operand, and operators with the operands behind
  them from left to right; then reduce all operators. This
  is what has been put out.
-/
def run
    (first : α)
    (rest : List (Operator × α)) : List α :=
  let taken := rest.foldl (shift join) ⟨[first], []⟩
  (reduceWhile join (fun _ => true) taken.output
    taken.operators).output

/- The same yard with something else for each operand. -/
def map
    (f : α → β)
    (yard : Yard α) : Yard β :=
  ⟨yard.output.map f, yard.operators⟩

variable
  {join}
  {other : Operator → β → β → β}
  {f : α → β}

/- Reductions do not depend on what the operands are. -/
theorem reduceWhile_map
    (hJoin :
      ∀ operator left right,
        f (join operator left right) =
          other operator (f left) (f right))
    (test : Operator → Bool)
    (output : List α)
    (operators : List Operator) :
    reduceWhile other test (output.map f) operators =
      (reduceWhile join test output operators).map f := by
  fun_induction reduceWhile join test output operators with
  | case1 right left output top operators hTest ih =>
      rw [← ih]
      simp [reduceWhile, hTest, hJoin]
  | case2 right left output top operators hTest =>
      simp [reduceWhile, hTest, map]
  | case3 output operators hNone =>
      rcases output with _ | ⟨right, _ | ⟨left, output⟩⟩
      · simp [reduceWhile, map]
      · simp [reduceWhile, map]
      · rcases operators with _ | ⟨top, operators⟩
        · simp [reduceWhile, map]
        · exact (hNone _ _ _ _ _ rfl rfl).elim

/-
  So a map that respects the joining of operands can be made
  before or after the yard is run.
-/
theorem run_map
    (hJoin :
      ∀ operator left right,
        f (join operator left right) =
          other operator (f left) (f right))
    (first : α)
    (rest : List (Operator × α)) :
    run other (f first)
        (rest.map (fun next => (next.1, f next.2))) =
      (run join first rest).map f := by
  have hShift
      (yard : Yard α)
      (next : Operator × α) :
      shift other (yard.map f) (next.1, f next.2) =
        (shift join yard next).map f := by
    unfold shift
    rw [show (yard.map f).output = yard.output.map f from rfl,
      reduceWhile_map hJoin]
    rfl
  have hTaken
      (yard : Yard α) :
      (rest.map (fun next => (next.1, f next.2))).foldl
          (shift other) (yard.map f) =
        (rest.foldl (shift join) yard).map f := by
    induction rest generalizing yard with
    | nil => rfl
    | cons next rest ih =>
        rw [List.map_cons, List.foldl_cons, hShift, ih]
        rfl
  have hFirst :
      (⟨[f first], []⟩ : Yard β) =
        (⟨[first], []⟩ : Yard α).map f := rfl
  unfold run
  rw [hFirst, hTaken]
  exact congrArg output (reduceWhile_map hJoin _ _ _)

end Algorithm

end Yard

------------------------------------------------------------
-- Trees
------------------------------------------------------------

/- Two trees under an operator. -/
def Expr.join
    (operator : Operator)
    (left right : Expr) : Expr :=
  .infixOp operator.token left right

namespace Expr

theorem level?_join
    (operator : Operator)
    (left right : Expr) :
    (join operator left right).level? =
      some operator.level :=
  operator.level?_token

theorem yield_join
    (operator : Operator)
    (left right : Expr) :
    (join operator left right).yield =
      left.yield ++ operator.token :: right.yield :=
  rfl

theorem isCanonical_join
    {operator : Operator}
    {left right : Expr}
    (hLeft : left.IsCanonical)
    (hRight : right.IsCanonical)
    (hAtLeast : left.RootAtLeast operator.level)
    (hAbove : right.RootAbove operator.level) :
    (join operator left right).IsCanonical :=
  ⟨⟨operator.level, operator.level?_token, hAtLeast,
    hAbove⟩, hLeft, hRight⟩

end Expr

namespace Yard

/-
  What the stacks hold when tokens have been taken in: a
  canonical tree at the bottom, and a canonical tree above
  it for each operator that waits. Each operator binds the
  tree that it was put above, and binds the tree that came
  with it, and is tighter than the operator below it.
-/
inductive Stacked :
    List Expr → List Operator → List Token → Prop where
  | single
      {expr : Expr}
      (hCanonical : expr.IsCanonical) :
      Stacked [expr] [] expr.yield
  | cons
      {left right : Expr}
      {output : List Expr}
      {operator : Operator}
      {operators : List Operator}
      {tokens : List Token}
      (hBelow : Stacked (left :: output) operators tokens)
      (hCanonical : right.IsCanonical)
      (hAtLeast : left.RootAtLeast operator.level)
      (hAbove : right.RootAbove operator.level)
      (hTighter :
        ∀ top ∈ operators.head?,
          top.level < operator.level) :
      Stacked (right :: left :: output)
        (operator :: operators)
        (tokens ++ operator.token :: right.yield)

namespace Stacked

variable
  {left right : Expr}
  {output : List Expr}
  {operator : Operator}
  {operators : List Operator}
  {tokens : List Token}

/- Every tree on the stack is canonical; so is the last one. -/
theorem isCanonical_head
    (h : Stacked (right :: output) operators tokens) :
    right.IsCanonical := by
  cases h with
  | single hCanonical => exact hCanonical
  | cons hBelow hCanonical hAtLeast hAbove hTighter =>
      exact hCanonical

/- With no operator waiting there is one tree for all tokens. -/
theorem eq_of_nil
    (h : Stacked (right :: output) [] tokens) :
    output = [] ∧ right.yield = tokens := by
  cases h with
  | single hCanonical => exact ⟨rfl, rfl⟩

/- To reduce an operator keeps the stacks and their tokens. -/
theorem reduce
    (h :
      Stacked (right :: left :: output)
        (operator :: operators) tokens) :
    Stacked (Expr.join operator left right :: output)
      operators tokens := by
  cases h with
  | cons hBelow hRight hAtLeast hAbove hTighter =>
      have hCanonical :
          (Expr.join operator left right).IsCanonical :=
        Expr.isCanonical_join hBelow.isCanonical_head hRight
          hAtLeast hAbove
      cases hBelow with
      | single hLeft => exact .single hCanonical
      | @cons below _ output under operators own hBelow
          hLeft hLeftAtLeast hLeftAbove hUnder =>
          -- The operator now counts for its whole tree.
          have hRoot :
              (Expr.join operator left right).RootAbove
                under.level := by
            intro level hLevel
            rw [Expr.level?_join] at hLevel
            cases hLevel
            exact hTighter under rfl
          have hJoined :=
            hBelow.cons hCanonical hLeftAtLeast hRoot hUnder
          rw [Expr.yield_join] at hJoined
          rw [List.append_assoc, List.cons_append]
          exact hJoined

/-
  To reduce the operators that pass a test keeps the stacks
  and their tokens. What the test says about an operator is
  then known about the last tree, and no operator on top
  passes it.
-/
theorem reduceWhile
    {test : Operator → Bool}
    {bound : Level}
    (hTest :
      ∀ top, test top = true → bound ≤ top.level)
    {output : List Expr}
    (h : Stacked output operators tokens)
    (hBound :
      ∀ expr ∈ output.head?, expr.RootAtLeast bound) :
    ∃ last rest waiting,
      Yard.reduceWhile Expr.join test output operators =
          ⟨last :: rest, waiting⟩ ∧
        Stacked (last :: rest) waiting tokens ∧
        last.RootAtLeast bound ∧
        ∀ top ∈ waiting.head?, test top = false := by
  induction operators generalizing output with
  | nil =>
      cases h with
      | @single expr hCanonical =>
          exact
            ⟨expr, [], [], rfl, .single hCanonical,
              hBound expr rfl, nofun⟩
  | cons operator operators ih =>
      cases h with
      | @cons left right output _ _ tokens hBelow hCanonical
          hAtLeast hAbove hTighter =>
          have hWhole :=
            hBelow.cons hCanonical hAtLeast hAbove hTighter
          cases hPass : test operator with
          | true =>
              have hJoined :
                  (Expr.join operator left right).RootAtLeast
                    bound := by
                intro level hLevel
                rw [Expr.level?_join] at hLevel
                cases hLevel
                exact hTest operator hPass
              have hNext := ih hWhole.reduce (by
                intro expr hHead
                cases hHead
                exact hJoined)
              simpa [Yard.reduceWhile, hPass] using hNext
          | false =>
              refine
                ⟨right, left :: output,
                  operator :: operators, ?_, hWhole,
                  hBound right rfl, ?_⟩
              · simp [Yard.reduceWhile, hPass]
              · intro top hHead
                cases hHead
                exact hPass

/-
  To take in an operator and an operand, whose root is no
  operator with two operands, takes in their tokens.
-/
theorem shift
    {yard : Yard Expr}
    {next : Operator × Expr}
    (h : Stacked yard.output yard.operators tokens)
    (hLast :
      ∀ expr ∈ yard.output.head?, ¬ expr.IsInfix)
    (hCanonical : next.2.IsCanonical)
    (hNext : ¬ next.2.IsInfix) :
    Stacked (Yard.shift Expr.join yard next).output
      (Yard.shift Expr.join yard next).operators
      (tokens ++ next.1.token :: next.2.yield) := by
  have hBound :
      ∀ expr ∈ yard.output.head?,
        expr.RootAtLeast next.1.level := by
    intro expr hHead level hLevel
    rw [Expr.level?_of_not_isInfix (hLast expr hHead)]
      at hLevel
    cases hLevel
  have hTest
      (top : Operator)
      (hPass :
        decide (next.1.level ≤ top.level) = true) :
      next.1.level ≤ top.level :=
    of_decide_eq_true hPass
  rcases h.reduceWhile hTest hBound with
    ⟨last, rest, waiting, hReduced, hStacked, hAtLeast,
      hFalse⟩
  unfold Yard.shift
  rw [hReduced]
  refine
    hStacked.cons hCanonical hAtLeast
      (Expr.rootAbove_of_not_isInfix hNext _) ?_
  intro top hHead
  have hNot := of_decide_eq_false (hFalse top hHead)
  exact Decidable.not_not.mp (mt Level.not_lt_iff_le.mp hNot)

/-
  So do operators with operands one after the other. Before
  each of them the last operand has been put out as it is.
-/
theorem foldl_shift
    {yard : Yard Expr}
    {rest : List (Operator × Expr)}
    (h : Stacked yard.output yard.operators tokens)
    (hLast :
      ∀ expr ∈ yard.output.head?, ¬ expr.IsInfix)
    (hRest :
      ∀ next ∈ rest,
        next.2.IsCanonical ∧ ¬ next.2.IsInfix) :
    Stacked
      (rest.foldl (Yard.shift Expr.join) yard).output
      (rest.foldl (Yard.shift Expr.join) yard).operators
      (tokens
        ++ rest.flatMap
          (fun next => next.1.token :: next.2.yield)) := by
  induction rest generalizing yard tokens with
  | nil =>
      rw [List.flatMap_nil, List.append_nil]
      exact h
  | cons next rest ih =>
      rcases hRest next (List.mem_cons_self ..) with
        ⟨hCanonical, hNext⟩
      have hShifted := h.shift hLast hCanonical hNext
      rw [List.flatMap_cons, ← List.append_assoc]
      apply ih hShifted
      · rintro expr ⟨⟩
        exact hNext
      · intro other hMem
        exact hRest other (List.mem_cons_of_mem _ hMem)

/- When all operators are reduced, one tree is left. -/
theorem reduceAll
    (h : Stacked output operators tokens) :
    ∃ expr,
      Yard.reduceWhile Expr.join (fun _ => true) output
          operators =
        ⟨[expr], []⟩ ∧
        expr.IsCanonical ∧ expr.yield = tokens := by
  have hTest
      (top : Operator)
      (_hPass : true = true) :
      Level.lowest ≤ top.level :=
    Level.le_of_lt
      (Token.Kind.lowest_lt_of_level? top.level?_token)
  have hBound :
      ∀ expr ∈ output.head?,
        expr.RootAtLeast Level.lowest := by
    intro expr hHead level hLevel
    exact Level.le_of_lt (expr.rootAbove_lowest level hLevel)
  rcases h.reduceWhile hTest hBound with
    ⟨expr, rest, waiting, hReduced, hStacked, -, hFalse⟩
  -- Every operator passes the test, so none is waiting.
  have hNone : waiting = [] := by
    cases waiting with
    | nil => rfl
    | cons top waiting => cases hFalse top rfl
  subst hNone
  rcases hStacked.eq_of_nil with ⟨rfl, hYield⟩
  exact ⟨expr, hReduced, hStacked.isCanonical_head, hYield⟩

end Stacked

/-
  A yard that is run on canonical operands, none of which
  has an operator with two operands at its root, puts out
  one tree: a canonical one with all the tokens in order.
-/
theorem exists_run_eq
    {first : Expr}
    {rest : List (Operator × Expr)}
    (hFirst : first.IsCanonical ∧ ¬ first.IsInfix)
    (hRest :
      ∀ next ∈ rest,
        next.2.IsCanonical ∧ ¬ next.2.IsInfix) :
    ∃ expr,
      run Expr.join first rest = [expr] ∧
        expr.IsCanonical ∧
        expr.yield =
          first.yield
            ++ rest.flatMap
              (fun next =>
                next.1.token :: next.2.yield) := by
  let start : Yard Expr := ⟨[first], []⟩
  have hStart :
      Stacked start.output start.operators first.yield :=
    .single hFirst.1
  have hLast :
      ∀ expr ∈ start.output.head?, ¬ expr.IsInfix := by
    rintro expr ⟨⟩
    exact hFirst.2
  have hTaken := hStart.foldl_shift hLast hRest
  rcases hTaken.reduceAll with
    ⟨expr, hReduced, hCanonical, hYield⟩
  refine ⟨expr, ?_, hCanonical, hYield⟩
  exact congrArg output hReduced

end Yard

end LetLang

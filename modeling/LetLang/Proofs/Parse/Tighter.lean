import LetLang.Proofs.Parse.Exactness

/-
  Expressions above a tighter level.

  Where an expression is parsed above a level, one is parsed
  above every tighter level as well. The two parses go the
  same way up to the first operator that is too loose for
  the tighter level. All that the longer parse adds from
  there on goes around the shorter tree, which so stands on
  the left side of the longer one.

  Which tree on the left side it is can be told from the
  longer tree: the first one from the root down that has no
  operator at its root that is too loose. Its yield ends
  before such an operator, or is the whole yield; and by the
  exactness of the parser that is where it is parsed.

  Key definitions include:
    * `Expr.OnLeftSide`
    * `Expr.cutAbove`

  Main declarations:
    * `Expr.onLeftSide_cutAbove`
    * `Expr.IsCanonical.cutAbove`
    * `Expr.yield_cutAbove`
    * `Parse.State.expression_tighter`
-/

namespace LetLang

------------------------------------------------------------
-- The Left Side of a Tree
------------------------------------------------------------

namespace Expr

/-
  A tree on the left side of another is that tree, or is
  reached from it by taking left operands of operators with
  two operands.
-/
inductive OnLeftSide : Expr → Expr → Prop where
  | refl
      (expr : Expr) :
      OnLeftSide expr expr
  | left
      {part left : Expr}
      (token : Token)
      (right : Expr)
      (h : OnLeftSide part left) :
      OnLeftSide part (.infixOp token left right)

/-
  The first tree down the left side that has no operator
  with two operands at its root, or one that binds above a
  level.
-/
def cutAbove
    (floor : Level) : Expr → Expr
  | .infixOp token left right =>
      if token.kind.bindsAbove floor then
        .infixOp token left right
      else
        left.cutAbove floor
  | expr => expr

variable {floor : Level}

/- A root that binds above the level is left alone. -/
theorem cutAbove_of_bindsAbove
    {token : Token}
    (h : token.kind.bindsAbove floor = true)
    (left right : Expr) :
    (infixOp token left right).cutAbove floor =
      .infixOp token left right := by
  rw [cutAbove, if_pos h]

/- Any other operator goes, with its right operand. -/
theorem cutAbove_of_not_bindsAbove
    {token : Token}
    (h : token.kind.bindsAbove floor = false)
    (left right : Expr) :
    (infixOp token left right).cutAbove floor =
      left.cutAbove floor := by
  rw [cutAbove, h]
  rfl

/- A tree that is cut is one on the left side. -/
theorem onLeftSide_cutAbove
    (floor : Level)
    (expr : Expr) :
    (expr.cutAbove floor).OnLeftSide expr := by
  induction expr with
  | infixOp token left right ihLeft _ =>
      cases hBinds : token.kind.bindsAbove floor with
      | true =>
          rw [cutAbove_of_bindsAbove hBinds]
          exact .refl _
      | false =>
          rw [cutAbove_of_not_bindsAbove hBinds]
          exact ihLeft.left token right
  | _ => exact .refl _

/- A canonical tree is cut to one above the level. -/
theorem IsCanonical.cutAbove
    {expr : Expr}
    (h : expr.IsCanonical)
    (floor : Level) :
    (expr.cutAbove floor).IsCanonicalAbove floor := by
  induction expr with
  | infixOp token left right ihLeft _ =>
      cases hBinds : token.kind.bindsAbove floor with
      | true =>
          rw [cutAbove_of_bindsAbove hBinds]
          refine ⟨h, ?_⟩
          intro level hLevel
          have hSome : token.kind.level? = some level :=
            hLevel
          simpa [Token.Kind.bindsAbove, hSome] using hBinds
      | false =>
          rw [cutAbove_of_not_bindsAbove hBinds]
          exact ihLeft h.2.1
  | _ =>
      refine ⟨h, rootAbove_of_not_isInfix ?_ floor⟩
      exact fun hInfix => hInfix

/-
  What is cut off the yield starts with an operator that
  does not bind above the level, if it is anything.
-/
theorem yield_cutAbove
    (floor : Level)
    (expr : Expr) :
    ∃ tokens,
      expr.yield = (expr.cutAbove floor).yield ++ tokens ∧
        ∀ token ∈ tokens.head?,
          token.kind.bindsAbove floor = false := by
  induction expr with
  | infixOp operator left right ihLeft _ =>
      cases hBinds : operator.kind.bindsAbove floor with
      | true =>
          rw [cutAbove_of_bindsAbove hBinds]
          exact ⟨[], (List.append_nil _).symm, nofun⟩
      | false =>
          rw [cutAbove_of_not_bindsAbove hBinds]
          rcases ihLeft with ⟨tokens, hYield, hHead⟩
          refine
            ⟨tokens ++ operator :: right.yield, ?_, ?_⟩
          · rw [yield, hYield, List.append_assoc]
          · intro token hToken
            cases tokens with
            | nil =>
                cases hToken
                exact hBinds
            | cons first tokens => exact hHead token hToken
  | _ => exact ⟨[], (List.append_nil _).symm, nofun⟩

end Expr

------------------------------------------------------------
-- Parsing above Two Levels
------------------------------------------------------------

/-
  Where some tokens are read, nothing binds above a level if
  neither the first of them nor what follows all of them
  does.
-/
theorem TokenStream.Reads.bindsAbove_eq_false
    {stream after : TokenStream}
    {tokens : List Token}
    {floor : Level}
    (h : stream.Reads tokens after)
    (hHead :
      ∀ token ∈ tokens.head?,
        token.kind.bindsAbove floor = false)
    (hAfter : after.bindsAbove floor = false) :
    stream.bindsAbove floor = false := by
  cases tokens with
  | nil =>
      rw [(refl stream).eq_of_reads h]
      exact hAfter
  | cons first tokens =>
      rw [bindsAbove_of_current h.current_eq]
      exact hHead first rfl

namespace Parse

/-
  Where a state gives an expression above a level, it gives
  one above any tighter level: the tree as it is cut above
  that level, which is a tree on its left side. What is read
  for it is what is read for the whole tree, up to some last
  tokens.
-/
theorem State.expression_tighter
    {state after : State}
    {floor tighter : Level}
    {expr : Expr}
    (hLevels : floor ≤ tighter)
    (hDone : state.expression floor = (.done expr, after)) :
    ∃ (part : Expr) (middle : State) (tokens : List Token),
      state.expression tighter = (.done part, middle) ∧
        part = expr.cutAbove tighter ∧
        part.OnLeftSide expr ∧
        state.stream.Reads expr.yield after.stream ∧
        state.stream.Reads part.yield middle.stream ∧
        middle.stream.Reads tokens after.stream ∧
        expr.yield = part.yield ++ tokens ∧
        middle.log = state.log := by
  rcases State.expression_eq_done.mp hDone with ⟨hExpr, -⟩
  rcases expression_eq_done_iff.mp hExpr with
    ⟨hReads, hCanonical, hStop⟩
  rcases expr.yield_cutAbove tighter with
    ⟨tokens, hYield, hHead⟩
  have hBoth := hReads
  rw [hYield] at hBoth
  rcases hBoth.exists_middle with ⟨middle, hPart, hLater⟩
  have hMiddle : middle.bindsAbove tighter = false :=
    hLater.bindsAbove_eq_false hHead
      (TokenStream.bindsAbove_eq_false_of_le hLevels hStop)
  have hTighter :
      Parse.expression tighter state.stream =
        (.done (expr.cutAbove tighter), middle) :=
    expression_eq_done_iff.mpr
      ⟨hPart, hCanonical.1.cutAbove tighter, hMiddle⟩
  exact
    ⟨_, ⟨middle, state.log⟩, tokens,
      State.expression_eq_done.mpr ⟨hTighter, rfl⟩, rfl,
      expr.onLeftSide_cutAbove tighter, hReads, hPart,
      hLater, hYield, rfl⟩

/-
  Of a comparison of sums above the level of sums only the
  first product is left.
-/
theorem State.expression_tighter_product :
    let state := State.ofStream (.ofSource "a * b + c < d")
    let product : Expr :=
      .infixOp ⟨.asterisk, "*"⟩
        (.ident ⟨.ident, "a"⟩) (.ident ⟨.ident, "b"⟩)
    let whole : Expr :=
      .infixOp ⟨.lessThan, "<"⟩
        (.infixOp ⟨.plus, "+"⟩ product
          (.ident ⟨.ident, "c"⟩))
        (.ident ⟨.ident, "d"⟩)
    ∃ after middle tokens,
      Level.lowest ≤ Level.sum ∧
        state.expression .lowest = (.done whole, after) ∧
        state.expression .sum = (.done product, middle) ∧
        product.OnLeftSide whole ∧
        state.stream.Reads product.yield middle.stream ∧
        middle.stream.Reads tokens after.stream ∧
        whole.yield = product.yield ++ tokens := by
  intro state product whole
  have hLevels : Level.lowest ≤ Level.sum := by decide
  have hDone :
      state.expression .lowest =
        (.done whole, (state.expression .lowest).2) :=
    Prod.ext (by decide +kernel) rfl
  rcases State.expression_tighter hLevels hDone with
    ⟨part, middle, tokens, hPart, hCut, hSide, -, hReads,
      hLater, hYield, -⟩
  cases (show part = product from hCut)
  exact
    ⟨_, middle, tokens, hLevels, hDone, hPart, hSide,
      hReads, hLater, hYield⟩

end Parse

end LetLang

import LetLang.Parse.Operand
import LetLang.Tree.Stmt

/-
  Canonical trees: those that need no parentheses.

  In a canonical tree every leaf is what its token stands
  for, and every operator has operands that the binding
  levels give to it: the left operand of an operator binds
  at least as tightly as the operator, the right one more
  tightly, and the operand of a prefix operator has no
  operator with two operands at its root.

  A canonical statement opens with the token of its form and
  has a canonical expression. Its tree keeps all its tokens
  but the sign of assignment.

  Key definitions include:
    * `Expr.IsInfix`
    * `Expr.level?`
    * `Expr.RootAbove`
    * `Expr.RootAtLeast`
    * `Expr.IsCanonical`
    * `Expr.IsCanonicalAbove`
    * `Stmt.IsCanonical`
    * `Stmt.yieldWith`
    * `Stmt.yield`

  Main declarations:
    * `Expr.IsCanonical.inExpression`
    * `Stmt.IsCanonical.isMark_eq_false`
-/

------------------------------------------------------------
-- Comparing Levels
------------------------------------------------------------

namespace LetLang

namespace Level

theorem lt_of_le_of_lt
    {a b c : Level}
    (hLe : a ≤ b)
    (hLt : b < c) :
    a < c := by
  rw [lt_iff_rank] at *
  rw [le_iff_rank] at hLe
  omega

theorem lt_of_lt_of_le
    {a b c : Level}
    (hLt : a < b)
    (hLe : b ≤ c) :
    a < c := by
  rw [lt_iff_rank] at *
  rw [le_iff_rank] at hLe
  omega

theorem le_of_lt
    {a b : Level}
    (h : a < b) :
    a ≤ b := by
  rw [lt_iff_rank] at h
  rw [le_iff_rank]
  omega

theorem not_lt_iff_le
    {a b : Level} :
    ¬ a < b ↔ b ≤ a := by
  rw [lt_iff_rank, le_iff_rank]
  omega

end Level

namespace Token.Kind

theorem bindsAbove_eq_false_of_le
    {kind : Kind}
    {a b : Level}
    (hLe : a ≤ b)
    (h : kind.bindsAbove a = false) :
    kind.bindsAbove b = false := by
  unfold bindsAbove at *
  cases hLevel : kind.level? with
  | none => rfl
  | some level =>
      rw [hLevel] at h
      simp only [decide_eq_false_iff_not] at h ⊢
      intro hLt
      exact h (Level.lt_of_le_of_lt hLe hLt)

theorem bindsAbove_eq_false_iff
    {kind : Kind}
    {level : Level}
    (h : kind.level? = some level)
    (floor : Level) :
    kind.bindsAbove floor = false ↔ level ≤ floor := by
  simp [bindsAbove, h, Level.not_lt_iff_le]

theorem bindsAbove_unary
    (kind : Kind) :
    kind.bindsAbove .unary = false := by
  cases kind <;> decide

theorem lowest_lt_of_level?
    {kind : Kind}
    {level : Level}
    (h : kind.level? = some level) :
    Level.lowest < level := by
  cases kind <;> simp [level?] at h <;> subst h <;> decide

end Token.Kind

------------------------------------------------------------
-- Roots
------------------------------------------------------------

namespace Expr

/- Whether the root is an operator with two operands. -/
def IsInfix : Expr → Prop
  | .infixOp _ _ _ => True
  | _ => False

instance : (expr : Expr) → Decidable expr.IsInfix
  | .ident _ => inferInstanceAs (Decidable False)
  | .int _ _ => inferInstanceAs (Decidable False)
  | .bool _ _ => inferInstanceAs (Decidable False)
  | .prefixOp _ _ => inferInstanceAs (Decidable False)
  | .infixOp _ _ _ => inferInstanceAs (Decidable True)

/- The level of the root if it has two operands. -/
def level? : Expr → Option Level
  | .infixOp token _ _ => token.kind.level?
  | _ => none

/- Only such an operator at the root has a level. -/
theorem level?_of_not_isInfix
    {expr : Expr}
    (h : ¬ expr.IsInfix) :
    expr.level? = none := by
  cases expr with
  | infixOp token left right => exact (h trivial).elim
  | _ => rfl

/-
  The root is not an operator with two operands, or it binds
  more tightly than a level.
-/
def RootAbove
    (floor : Level)
    (expr : Expr) : Prop :=
  ∀ level ∈ expr.level?, floor < level

/-
  The root is not an operator with two operands, or it binds
  at least as tightly as a level.
-/
def RootAtLeast
    (bound : Level)
    (expr : Expr) : Prop :=
  ∀ level ∈ expr.level?, bound ≤ level

instance
    (floor : Level)
    (expr : Expr) :
    Decidable (expr.RootAbove floor) :=
  inferInstanceAs
    (Decidable (∀ level ∈ expr.level?, floor < level))

instance
    (bound : Level)
    (expr : Expr) :
    Decidable (expr.RootAtLeast bound) :=
  inferInstanceAs
    (Decidable (∀ level ∈ expr.level?, bound ≤ level))

theorem rootAbove_of_not_isInfix
    {expr : Expr}
    (h : ¬ expr.IsInfix)
    (floor : Level) :
    expr.RootAbove floor := by
  intro level hLevel
  rw [level?_of_not_isInfix h] at hLevel
  cases hLevel

theorem rootAbove_lowest
    (expr : Expr) :
    expr.RootAbove .lowest := by
  intro level hLevel
  cases expr with
  | infixOp token left right =>
      exact Token.Kind.lowest_lt_of_level? hLevel
  | _ => cases hLevel

------------------------------------------------------------
-- Canonical Trees
------------------------------------------------------------

instance
    (token : Token)
    (value : Nat) :
    Decidable (token.integer = .ok value) :=
  match token.integer with
  | .ok found => decidable_of_iff (found = value) (by simp)
  | .error _ => isFalse (by simp)

/- The tree is the one that its yield stands for. -/
def IsCanonical : Expr → Prop
  | .ident token => token.kind = .ident
  | .int token value =>
      token.kind = .int ∧ token.integer = .ok value
  | .bool token value =>
      (token.kind = .trueWord ∨ token.kind = .falseWord) ∧
        value = (token.kind == .trueWord)
  | .prefixOp token right =>
      Parse.isUnary token.kind = true ∧
        right.IsCanonical ∧ ¬ right.IsInfix
  | .infixOp token left right =>
      (∃ level ∈ token.kind.level?,
          left.RootAtLeast level ∧
            right.RootAbove level) ∧
        left.IsCanonical ∧ right.IsCanonical

instance decidableIsCanonical :
    (expr : Expr) → Decidable expr.IsCanonical
  | .ident token =>
      inferInstanceAs (Decidable (token.kind = .ident))
  | .int token value =>
      inferInstanceAs
        (Decidable
          (token.kind = .int ∧ token.integer = .ok value))
  | .bool token value =>
      inferInstanceAs
        (Decidable
          ((token.kind = .trueWord ∨
              token.kind = .falseWord) ∧
            value = (token.kind == .trueWord)))
  | .prefixOp token right =>
      have := decidableIsCanonical right
      inferInstanceAs
        (Decidable
          (Parse.isUnary token.kind = true ∧
            right.IsCanonical ∧ ¬ right.IsInfix))
  | .infixOp token left right =>
      have := decidableIsCanonical left
      have := decidableIsCanonical right
      inferInstanceAs
        (Decidable
          ((∃ level ∈ token.kind.level?,
              left.RootAtLeast level ∧
                right.RootAbove level) ∧
            left.IsCanonical ∧ right.IsCanonical))

/-
  A canonical tree of which the root, if it has two
  operands, binds more tightly than a level.
-/
def IsCanonicalAbove
    (floor : Level)
    (expr : Expr) : Prop :=
  expr.IsCanonical ∧ expr.RootAbove floor

/- No operator with two operands binds above the prefixes. -/
theorem IsCanonicalAbove.not_isInfix
    {expr : Expr}
    (h : expr.IsCanonicalAbove .unary) :
    ¬ expr.IsInfix := by
  intro hInfix
  cases expr with
  | infixOp operator left right =>
      rcases h with ⟨⟨⟨level, hLevel, -⟩, -⟩, hRoot⟩
      have hTight : Level.unary < level := hRoot level hLevel
      have hLoose : level < Level.unary :=
        Token.Kind.level?_lt_unary hLevel
      rw [Level.lt_iff_rank] at hTight hLoose
      omega
  | _ => exact hInfix

end Expr

------------------------------------------------------------
-- Kinds of Tokens in Trees
------------------------------------------------------------

namespace Token.Kind

/- The kinds of tokens that expressions consist of. -/
def inExpression
    (kind : Kind) : Bool :=
  Parse.isUnary kind || kind.level?.isSome
    || [.ident, .int, .trueWord, .falseWord].contains kind

/- The kinds of tokens that are part of no statement. -/
def isMark
    (kind : Kind) : Bool :=
  kind == .semicolon || kind == .eof

theorem isMark_of_inExpression
    {kind : Kind}
    (h : kind.inExpression = true) :
    kind.isMark = false := by
  cases kind <;> first | rfl | cases h

end Token.Kind

namespace Expr

/- A canonical expression has tokens of such kinds only. -/
theorem IsCanonical.inExpression
    {expr : Expr}
    (h : expr.IsCanonical)
    {token : Token}
    (hMem : token ∈ expr.yield) :
    token.kind.inExpression = true := by
  induction expr with
  | ident leaf =>
      have hKind : leaf.kind = .ident := h
      cases List.mem_singleton.mp hMem
      rw [hKind]
      rfl
  | int leaf value =>
      cases List.mem_singleton.mp hMem
      rw [h.1]
      rfl
  | bool leaf value =>
      cases List.mem_singleton.mp hMem
      rcases h.1 with hKind | hKind <;> rw [hKind] <;> rfl
  | prefixOp operator right ih =>
      rcases h with ⟨hUnary, hRight, -⟩
      rcases List.mem_cons.mp hMem with rfl | hMem
      · simp [Token.Kind.inExpression, hUnary]
      · exact ih hRight hMem
  | infixOp operator left right ihLeft ihRight =>
      rcases h with ⟨⟨level, hLevel, -⟩, hLeft, hRight⟩
      rcases List.mem_append.mp hMem with hMem | hMem
      · exact ihLeft hLeft hMem
      · rcases List.mem_cons.mp hMem with rfl | hMem
        · have hSome : token.kind.level? = some level :=
            hLevel
          simp [Token.Kind.inExpression, hSome]
        · exact ihRight hRight hMem

theorem first_mem_yield
    (expr : Expr) :
    expr.first ∈ expr.yield :=
  List.mem_of_mem_head? expr.head?_yield

end Expr

------------------------------------------------------------
-- Statements
------------------------------------------------------------

namespace Token

/- The sign of assignment as it is scanned. -/
def assignSign : Token :=
  ⟨.assign, "="⟩

/- The mark between statements as it is scanned. -/
def semicolon : Token :=
  ⟨.semicolon, ";"⟩

end Token

namespace Stmt

/- The tree is the one that its tokens stand for. -/
def IsCanonical : Stmt → Prop
  | .letStmt token name value =>
      token.kind = .letWord ∧ name.kind = .ident ∧
        value.IsCanonical
  | .returnStmt token value =>
      token.kind = .returnWord ∧ value.IsCanonical
  | .exprStmt token expr =>
      token = expr.first ∧ expr.IsCanonical

instance : (stmt : Stmt) → Decidable stmt.IsCanonical
  | .letStmt token name value =>
      inferInstanceAs
        (Decidable
          (token.kind = .letWord ∧ name.kind = .ident ∧
            value.IsCanonical))
  | .returnStmt token value =>
      inferInstanceAs
        (Decidable
          (token.kind = .returnWord ∧ value.IsCanonical))
  | .exprStmt token expr =>
      inferInstanceAs
        (Decidable (token = expr.first ∧ expr.IsCanonical))

/-
  The tokens of a statement in source order. The sign of
  assignment is given, as the tree does not keep it.
-/
def yieldWith
    (sign : Token) : Stmt → List Token
  | .letStmt token name value =>
      token :: name :: sign :: value.yield
  | .returnStmt token value => token :: value.yield
  | .exprStmt _ expr => expr.yield

/- The tokens of a statement as they are scanned. -/
def yield
    (stmt : Stmt) : List Token :=
  stmt.yieldWith Token.assignSign

/- A canonical statement has no marks. -/
theorem IsCanonical.isMark_eq_false
    {stmt : Stmt}
    (h : stmt.IsCanonical)
    {sign : Token}
    (hSign : sign.kind = .assign)
    {token : Token}
    (hMem : token ∈ stmt.yieldWith sign) :
    token.kind.isMark = false := by
  cases stmt with
  | letStmt opening name value =>
      rcases h with ⟨hOpening, hName, hValue⟩
      simp only [yieldWith, List.mem_cons] at hMem
      rcases hMem with rfl | rfl | rfl | hMem
      · rw [hOpening]
        rfl
      · rw [hName]
        rfl
      · rw [hSign]
        rfl
      · exact Token.Kind.isMark_of_inExpression
          (hValue.inExpression hMem)
  | returnStmt opening value =>
      rcases h with ⟨hOpening, hValue⟩
      simp only [yieldWith, List.mem_cons] at hMem
      rcases hMem with rfl | hMem
      · rw [hOpening]
        rfl
      · exact Token.Kind.isMark_of_inExpression
          (hValue.inExpression hMem)
  | exprStmt opening expr =>
      exact Token.Kind.isMark_of_inExpression
        (h.2.inExpression hMem)

theorem yieldWith_ne_nil
    (stmt : Stmt)
    (sign : Token) :
    stmt.yieldWith sign ≠ [] := by
  cases stmt with
  | letStmt opening name value => simp [yieldWith]
  | returnStmt opening value => simp [yieldWith]
  | exprStmt opening expr =>
      exact List.ne_nil_of_mem expr.first_mem_yield

/- A canonical statement starts with no mark. -/
theorem IsCanonical.isMark_head?
    {stmt : Stmt}
    (h : stmt.IsCanonical)
    {sign : Token}
    (hSign : sign.kind = .assign)
    {rest : List Token}
    {token : Token}
    (hHead : token ∈ (stmt.yieldWith sign ++ rest).head?) :
    token.kind.isMark = false := by
  apply h.isMark_eq_false hSign
  cases hYield : stmt.yieldWith sign with
  | nil => exact (stmt.yieldWith_ne_nil sign hYield).elim
  | cons first own =>
      rw [hYield] at hHead
      cases hHead
      exact List.mem_cons_self ..

theorem length_yieldWith
    (stmt : Stmt)
    (sign : Token) :
    (stmt.yieldWith sign).length = stmt.yield.length := by
  cases stmt <;> rfl

end Stmt

end LetLang

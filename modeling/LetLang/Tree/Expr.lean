import LetLang.Diagnostic.Fault
import LetLang.Level
import LetLang.Tree.Node

/-
  Expression trees: identifiers, integers and booleans under
  operators with one or two operands.

  An expression is a node of a restricted shape; its views
  are those of the node. The *yield* of an expression lists
  its tokens in the order in which they stand in a source.

  Key definitions include:
    * `Expr`
    * `Expr.toNode`
    * `Expr.render`
    * `Expr.yield`
-/

namespace LetLang

/- A tree of operators over names and constants. -/
inductive Expr where
  | ident (token : Token)
  | int (token : Token) (value : Nat)
  | bool (token : Token) (value : Bool)
  | prefixOp (token : Token) (right : Expr)
  | infixOp (token : Token) (left right : Expr)
  deriving DecidableEq, Repr

namespace Expr

/- The truth value that a token stands for as a constant. -/
def truth
    (token : Token) : Expr :=
  .bool token (token.kind == .trueWord)

------------------------------------------------------------
-- Views
------------------------------------------------------------

/- An expression as a node. -/
def toNode : Expr → Node
  | .ident token => .ident token
  | .int token value => .int token value
  | .bool token value => .bool token value
  | .prefixOp token right => .prefixOp token right.toNode
  | .infixOp token left right =>
      .infixOp token left.toNode right.toNode

/- The text of an expression, operators in parentheses. -/
def render
    (expr : Expr) : String :=
  expr.toNode.render

/- The tokens of an expression in source order. -/
def yield : Expr → List Token
  | .ident token => [token]
  | .int token _ => [token]
  | .bool token _ => [token]
  | .prefixOp token right => token :: right.yield
  | .infixOp token left right =>
      left.yield ++ token :: right.yield

/- The first token of an expression in source order. -/
def first : Expr → Token
  | .ident token => token
  | .int token _ => token
  | .bool token _ => token
  | .prefixOp token _ => token
  | .infixOp _ left _ => left.first

------------------------------------------------------------
-- Laws
------------------------------------------------------------

/- Different expressions are different nodes. -/
theorem toNode_inj
    {a b : Expr}
    (h : a.toNode = b.toNode) :
    a = b := by
  induction a generalizing b with
  | ident token => cases b <;> simp_all [toNode]
  | int token value => cases b <;> simp_all [toNode]
  | bool token value => cases b <;> simp_all [toNode]
  | prefixOp token right ih =>
      cases b <;> simp [toNode] at h
      obtain ⟨rfl, hRight⟩ := h
      rw [ih hRight]
  | infixOp token left right ihLeft ihRight =>
      cases b <;> simp [toNode] at h
      obtain ⟨rfl, hLeft, hRight⟩ := h
      rw [ihLeft hLeft, ihRight hRight]

theorem render_prefixOp
    (token : Token)
    (right : Expr) :
    (prefixOp token right).render =
      "(" ++ token.literal ++ right.render ++ ")" :=
  rfl

theorem render_infixOp
    (token : Token)
    (left right : Expr) :
    (infixOp token left right).render =
      "(" ++ left.render ++ " " ++ token.literal ++ " "
        ++ right.render ++ ")" :=
  rfl

theorem head?_yield
    (expr : Expr) :
    expr.yield.head? = some expr.first := by
  induction expr with
  | ident token => rfl
  | int token value => rfl
  | bool token value => rfl
  | prefixOp token right ih => rfl
  | infixOp token left right ihLeft ihRight =>
      simp [yield, first, ihLeft]

end Expr

end LetLang

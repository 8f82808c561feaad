import LetLang.Tree.Expr

/-
  Statements, of which a program is a list.

  A statement keeps the token that opens it; for a bare
  expression this is the expression's first token.

  Key definitions include:
    * `Stmt`
    * `Stmt.toNode`
    * `Stmt.render`
    * `Program`
    * `Program.render`
    * `Program.record`
-/

namespace LetLang

/- A binding, a result, or a bare expression. -/
inductive Stmt where
  | letStmt (token : Token) (name : Token) (value : Expr)
  | returnStmt (token : Token) (value : Expr)
  | exprStmt (token : Token) (expression : Expr)
  deriving DecidableEq, Repr

namespace Stmt

/- A statement as a node. -/
def toNode : Stmt → Node
  | .letStmt token name value =>
      .letStmt token (.ident name) value.toNode
  | .returnStmt token value =>
      .returnStmt token value.toNode
  | .exprStmt token expression =>
      .exprStmt token expression.toNode

/- The text of a statement. -/
def render
    (stmt : Stmt) : String :=
  stmt.toNode.render

/- Different statements are different nodes. -/
theorem toNode_inj
    {a b : Stmt}
    (h : a.toNode = b.toNode) :
    a = b := by
  cases a with
  | letStmt token name value =>
      cases b <;> simp [toNode] at h
      obtain ⟨rfl, rfl, hValue⟩ := h
      rw [Expr.toNode_inj hValue]
  | returnStmt token value =>
      cases b <;> simp [toNode] at h
      obtain ⟨rfl, hValue⟩ := h
      rw [Expr.toNode_inj hValue]
  | exprStmt token expression =>
      cases b <;> simp [toNode] at h
      obtain ⟨rfl, hExpression⟩ := h
      rw [Expr.toNode_inj hExpression]

end Stmt

/- A program is a list of statements. -/
abbrev Program :=
  List Stmt

namespace Program

/-
  The text of a program: its statements' texts, with nothing
  between them.
-/
def render
    (program : Program) : String :=
  Node.renderAll (program.map Stmt.toNode)

/- The record of a program. -/
def record
    (program : Program) : Json :=
  .arr (program.map (fun stmt => stmt.toNode.record))

end Program

end LetLang

import LetLang.Diagnostic.Log
import LetLang.Tree.Stmt

/-
  Renamings: changes of the texts of tokens.

  A renaming keeps the kind of every token, whatever text it
  puts in the place of the old one; the text of an integer
  is its value, and stays. Trees and errors are renamed by
  renaming each token in them. Their shapes stay, and so do
  the values that they carry.

  Key definitions include:
    * `Token.Renaming`
    * `Expr.rename`
    * `Stmt.rename`
    * `Program.rename`
    * `ParseError.rename`
    * `Failure.rename`

  Main declarations:
    * `Expr.first_rename`
    * `Obstacle.error_rename`
-/

namespace LetLang

------------------------------------------------------------
-- Tokens
------------------------------------------------------------

/-
  A change of tokens that keeps their kinds and leaves the
  integers alone.
-/
structure Token.Renaming where
  apply : Token → Token
  kind_apply : ∀ token, (apply token).kind = token.kind
  apply_int :
    ∀ token, token.kind = .int → apply token = token

namespace Token.Renaming

instance : CoeFun Renaming (fun _ => Token → Token) :=
  ⟨apply⟩

/- Spell each kind of token, but integers, in one way. -/
def spelling
    (text : Kind → String) : Renaming where
  apply := fun token =>
    if token.kind = .int then
      token
    else
      ⟨token.kind, text token.kind⟩
  kind_apply := by
    intro token
    split <;> rfl
  apply_int := by
    intro token hInt
    rw [if_pos hInt]

end Token.Renaming

variable
  (f : Token.Renaming)

------------------------------------------------------------
-- Trees
------------------------------------------------------------

/- Rename every token of an expression. -/
def Expr.rename : Expr → Expr
  | .ident token => .ident (f token)
  | .int token value => .int (f token) value
  | .bool token value => .bool (f token) value
  | .prefixOp token right =>
      .prefixOp (f token) (rename right)
  | .infixOp token left right =>
      .infixOp (f token) (rename left) (rename right)

/- The first token is renamed like any other. -/
theorem Expr.first_rename
    (expr : Expr) :
    (expr.rename f).first = f expr.first := by
  induction expr with
  | ident token => rfl
  | int token value => rfl
  | bool token value => rfl
  | prefixOp token right ih => rfl
  | infixOp token left right ihLeft ihRight => exact ihLeft

theorem Expr.truth_rename
    (token : Token) :
    (Expr.truth token).rename f = Expr.truth (f token) := by
  unfold Expr.truth
  rw [f.kind_apply]
  rfl

/- Rename every token of a statement. -/
def Stmt.rename : Stmt → Stmt
  | .letStmt token name value =>
      .letStmt (f token) (f name) (value.rename f)
  | .returnStmt token value =>
      .returnStmt (f token) (value.rename f)
  | .exprStmt token expression =>
      .exprStmt (f token) (expression.rename f)

/- Rename every statement of a program. -/
def Program.rename
    (program : Program) : Program :=
  program.map (Stmt.rename f)

------------------------------------------------------------
-- Errors
------------------------------------------------------------

/- Rename the token that an error is about, if any. -/
def ParseError.rename : ParseError → ParseError
  | .unexpectedToken expected found =>
      .unexpectedToken expected (found.map f)
  | .noOperand token => .noOperand (f token)
  | error => error

/- Rename the token that is in the way, if any. -/
def Obstacle.rename : Obstacle → Obstacle
  | .missing => .missing
  | .unusable token => .unusable (f token)

/- The error for an obstacle is renamed with it. -/
theorem Obstacle.error_rename
    (obstacle : Obstacle) :
    (obstacle.rename f).error = obstacle.error.rename f := by
  cases obstacle with
  | missing => rfl
  | unusable token => rfl

/- Rename the obstacle of a failure. -/
def Failure.rename
    (failure : Failure) : Failure :=
  { failure with obstacle := failure.obstacle.rename f }

end LetLang

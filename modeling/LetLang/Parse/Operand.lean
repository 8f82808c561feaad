import LetLang.Diagnostic.Log
import LetLang.Parse.Outcome
import LetLang.Tree.Expr

/-
  Operands that consist of one token, and the tokens that
  start a longer one.

  Key definitions include:
    * `Attempt`
    * `Parse.isUnary`
    * `Parse.leaf`
-/

namespace LetLang

/- An attempt at an expression, before it is recorded. -/
abbrev Attempt :=
  Outcome Failure Expr

namespace Parse

/- Whether a token is an operator with one operand. -/
def isUnary
    (kind : Token.Kind) : Bool :=
  kind == .bang || kind == .minus

/- The operand that consists of one token. -/
def leaf
    (token : Token) : Attempt :=
  match token.kind with
  | .ident => .done (.ident token)
  | .int =>
      match token.integer with
      | .ok value => .done (.int token value)
      | .error fault => .fatal fault
  | .trueWord => .done (Expr.truth token)
  | .falseWord => .done (Expr.truth token)
  | _ => .failed ⟨.unusable token, []⟩

end Parse

end LetLang

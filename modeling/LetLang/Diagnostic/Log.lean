import LetLang.Diagnostic.ParseError

/-
  The log of a parse: its errors in the order in which they
  were recorded, each with the place in the log of the error
  that caused it.

  The log only grows. An expression that fails brings a
  chain of errors: what was wrong at the failing token, then
  one error for every operator that was waiting for the
  operand, innermost first. All of the chain but its last
  error is recorded when the expression fails; what becomes
  of the last one is up to whoever asked for the expression.

  Key definitions include:
    * `Diagnostic`
    * `Log`
    * `Log.citing`
    * `Failure`
    * `Failure.raise`
-/

namespace LetLang

------------------------------------------------------------
-- Logs
------------------------------------------------------------

/- An error and the place in the log of its cause. -/
structure Diagnostic where
  error : ParseError
  cause : Option Nat
  deriving DecidableEq, Repr

namespace Diagnostic

/- An error that no other error caused. -/
def root
    (error : ParseError) : Diagnostic :=
  ⟨error, none⟩

end Diagnostic

/- The errors recorded so far. -/
abbrev Log :=
  Array Diagnostic

namespace Log

/- Record an error, and cite it as the cause of another. -/
def citing
    (log : Log)
    (cause : Diagnostic)
    (error : ParseError) : Log × Diagnostic :=
  (log.push cause, ⟨error, some log.size⟩)

end Log

------------------------------------------------------------
-- Failed Expressions
------------------------------------------------------------

/- What can be wrong where an operand should start. -/
inductive Obstacle where
  | missing
  | unusable (token : Token)
  deriving DecidableEq, Repr

namespace Obstacle

/- The error for an obstacle. -/
def error : Obstacle → ParseError
  | .missing => .missingToken
  | .unusable token => .noOperand token

end Obstacle

/-
  Why an expression failed: the obstacle, and the operators
  that were waiting for the operand, outermost first.
-/
structure Failure where
  obstacle : Obstacle
  waiting : List OperatorForm
  deriving DecidableEq, Repr

namespace Failure

/- A failure below one more operator. -/
def under
    (failure : Failure)
    (form : OperatorForm) : Failure :=
  { failure with waiting := form :: failure.waiting }

/-
  Record a failure up to its last error, which is returned
  with its cause.
-/
def raise
    (failure : Failure)
    (log : Log) : Log × Diagnostic :=
  failure.waiting.foldr
    (fun form (log, cause) =>
      log.citing cause (.operandFailed form))
    (log, Diagnostic.root failure.obstacle.error)

theorem raise_nil
    (obstacle : Obstacle)
    (log : Log) :
    (Failure.mk obstacle []).raise log =
      (log, Diagnostic.root obstacle.error) :=
  rfl

/-
  An operator around a failure is caused by the error that
  the failure ended with.
-/
theorem raise_under
    (failure : Failure)
    (form : OperatorForm)
    (log : Log) :
    (failure.under form).raise log =
      (failure.raise log).1.citing (failure.raise log).2
        (.operandFailed form) :=
  rfl

end Failure

end LetLang

import LetLang.Diagnostic.Fault

/-
  Outcomes: what comes of an attempt to parse something.

  Key definitions include:
    * `Outcome`
    * `Outcome.map`
    * `Outcome.mapFailure`
-/

namespace LetLang

/-
  What comes of an attempt: a result, a recoverable failure,
  or a fault that ends the parse.
-/
inductive Outcome
    (ε α : Type) where
  | done (result : α)
  | failed (failure : ε)
  | fatal (fault : Fault)
  deriving DecidableEq, Repr

namespace Outcome

/- Change the result of an attempt. -/
def map
    {ε α β : Type}
    (f : α → β) : Outcome ε α → Outcome ε β
  | .done result => .done (f result)
  | .failed failure => .failed failure
  | .fatal fault => .fatal fault

/- Change the failure of an attempt. -/
def mapFailure
    {ε δ α : Type}
    (f : ε → δ) : Outcome ε α → Outcome δ α
  | .done result => .done result
  | .failed failure => .failed (f failure)
  | .fatal fault => .fatal fault

end Outcome

end LetLang

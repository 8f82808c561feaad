import LetLang.Diagnostic.Log

/-
  Chains of errors: what a failed expression leaves in a
  log.

  The errors of a chain stand in a row in the log. The first
  has no cause, and every other one is caused by the error
  right before it.

  Key definitions include:
    * `Diagnostic.chain`
    * `Failure.errors`

  Main declarations:
    * `Log.toList_citing`
    * `Failure.toList_raise`
-/

------------------------------------------------------------
-- Chains
------------------------------------------------------------

namespace LetLang

namespace Diagnostic

/-
  The cause of an error of a chain that starts at a place of
  a log: none for the first error, and the place before its
  own for any other.
-/
def causeFrom
    (place : Nat) : Nat → Option Nat
  | 0 => none
  | i + 1 => some (place + i)

/- A chain of errors that starts at a place of a log. -/
def chain
    (place : Nat)
    (errors : List ParseError) : List Diagnostic :=
  errors.mapIdx
    (fun i error => ⟨error, causeFrom place i⟩)

@[simp]
theorem length_chain
    (place : Nat)
    (errors : List ParseError) :
    (chain place errors).length = errors.length := by
  simp [chain]

@[simp]
theorem map_error_chain
    (place : Nat)
    (errors : List ParseError) :
    (chain place errors).map Diagnostic.error = errors := by
  apply List.ext_getElem
  · simp
  · intro i hChain hErrors
    simp [chain]

theorem head?_chain
    (place : Nat)
    (error : ParseError)
    (later : List ParseError) :
    (chain place (error :: later)).head? =
      some (root error) := by
  simp [chain, causeFrom, root]

/-
  One more error at the end of a chain is caused by the
  error that was the last.
-/
theorem chain_concat
    (place : Nat)
    {errors : List ParseError}
    (hErrors : errors ≠ [])
    (error : ParseError) :
    chain place (errors ++ [error]) =
      chain place errors
        ++ [⟨error, some (place + (errors.length - 1))⟩] := by
  have hCause :
      causeFrom place errors.length =
        some (place + (errors.length - 1)) := by
    cases hLength : errors.length with
    | zero =>
        exact
          (hErrors (List.eq_nil_of_length_eq_zero hLength)).elim
    | succ n => rfl
  simp [chain, List.mapIdx_append, hCause]

end Diagnostic

/-
  Where the last error of a chain is recorded and cited, the
  chain goes on with the error that cites it.
-/
theorem Log.toList_citing
    {log recorded : Log}
    {cause : Diagnostic}
    {errors : List ParseError}
    (hErrors : errors ≠ [])
    (hLog :
      (recorded.push cause).toList =
        log.toList ++ Diagnostic.chain log.size errors)
    (error : ParseError) :
    ((recorded.citing cause error).1.push
        (recorded.citing cause error).2).toList =
      log.toList
        ++ Diagnostic.chain log.size (errors ++ [error]) := by
  -- The error that is cited has the last place of the chain.
  have hSize :
      recorded.size = log.size + (errors.length - 1) := by
    have hLength := congrArg List.length hLog
    have hPositive : 0 < errors.length :=
      List.length_pos_iff.mpr hErrors
    simp only [Array.length_toList, Array.size_push,
      List.length_append, Diagnostic.length_chain]
      at hLength
    omega
  rw [Diagnostic.chain_concat _ hErrors]
  simp only [citing]
  rw [Array.toList_push, hLog, hSize, List.append_assoc]

------------------------------------------------------------
-- Failures Leave Chains
------------------------------------------------------------

namespace Failure

/- The errors of a failure, in the order of recording. -/
def errors
    (failure : Failure) : List ParseError :=
  failure.obstacle.error
    :: failure.waiting.reverse.map ParseError.operandFailed

theorem errors_ne_nil
    (failure : Failure) :
    failure.errors ≠ [] :=
  List.cons_ne_nil _ _

theorem errors_under
    (failure : Failure)
    (form : OperatorForm) :
    (failure.under form).errors =
      failure.errors ++ [.operandFailed form] := by
  simp [errors, under]

/-
  With its last error recorded as well, a failure leaves the
  chain of its errors in the log.
-/
theorem toList_raise
    (failure : Failure)
    (log : Log) :
    ((failure.raise log).1.push
        (failure.raise log).2).toList =
      log.toList
        ++ Diagnostic.chain log.size failure.errors := by
  rcases failure with ⟨obstacle, waiting⟩
  induction waiting with
  | nil =>
      simp [raise_nil, errors, Diagnostic.chain,
        Diagnostic.causeFrom, Diagnostic.root]
  | cons form waiting ih =>
      generalize hInner : Failure.mk obstacle waiting = inner
        at ih
      have hUnder :
          Failure.mk obstacle (form :: waiting) =
            inner.under form := by
        rw [← hInner]
        rfl
      rw [hUnder, raise_under, errors_under]
      exact Log.toList_citing inner.errors_ne_nil ih
        (.operandFailed form)

end Failure

end LetLang

import LetLang.Proofs.Parse.Acceptance
import LetLang.Proofs.Parse.Progress

/-
  Consumption: what is left of a stream is always an end of
  it, and no token is used for two statements.

  The *weight* of a row of places is the number of tokens in
  it that can be part of a statement. The statements of a
  parse, clean or not, together have at most as many tokens
  as the places before it weigh.

  Key definitions include:
    * `Program.size`
    * `TokenStream.weight`

  Main declarations:
    * `Parse.suffix_statement`
    * `Parse.Course.size_le`
-/

------------------------------------------------------------
-- What Is Left
------------------------------------------------------------

namespace LetLang

theorem TokenStream.advance_suffix
    (stream : TokenStream) :
    stream.advance.rest <:+ stream.rest :=
  List.tail_suffix stream.rest

namespace Parse

/- An attempt at a statement leaves an end of its stream. -/
theorem suffix_statement
    (state : State) :
    (statement state).2.stream.rest <:+
      state.stream.rest :=
  (statement_trace state).later.suffix

end Parse

------------------------------------------------------------
-- Weights
------------------------------------------------------------

namespace Program

/- How many tokens the statements of a program have. -/
def size : Program → Nat
  | [] => 0
  | stmt :: program => stmt.yield.length + size program

theorem size_cons
    (stmt : Stmt)
    (program : Program) :
    size (stmt :: program) =
      stmt.yield.length + size program :=
  rfl

theorem size_append
    (program later : Program) :
    size (program ++ later) = size program + size later := by
  induction program with
  | nil => simp [size]
  | cons stmt program ih =>
      rw [List.cons_append, size_cons, size_cons, ih,
        Nat.add_assoc]

theorem eq_nil_of_size_eq_zero
    {program : Program}
    (h : size program = 0) :
    program = [] := by
  cases program with
  | nil => rfl
  | cons stmt program =>
      have hPos : 0 < stmt.yield.length :=
        List.length_pos_iff.mpr
          (stmt.yieldWith_ne_nil Token.assignSign)
      rw [size_cons] at h
      omega

end Program

namespace TokenStream

/- How many places hold a token other than a mark. -/
def weight
    (places : List (Option Token)) : Nat :=
  places.countP
    (fun place =>
      place.any (fun token => !token.kind.isMark))

theorem weight_append
    (places later : List (Option Token)) :
    weight (places ++ later) =
      weight places + weight later :=
  List.countP_append

theorem weight_le_of_suffix
    {places later : List (Option Token)}
    (h : later <:+ places) :
    weight later ≤ weight places :=
  h.sublist.countP_le

theorem weight_of_isMark_eq_false
    {tokens : List Token}
    (h : ∀ token ∈ tokens, token.kind.isMark = false) :
    weight (tokens.map some) = tokens.length := by
  unfold weight
  rw [List.countP_map]
  apply List.countP_eq_length.mpr
  intro token hMem
  simp [h token hMem]

end TokenStream

/- The tokens of a canonical statement all count. -/
theorem Stmt.IsCanonical.weight_yieldWith
    {stmt : Stmt}
    (hCanonical : stmt.IsCanonical)
    {sign : Token}
    (hSign : sign.kind = .assign) :
    TokenStream.weight ((stmt.yieldWith sign).map some) =
      stmt.yield.length := by
  rw [← stmt.length_yieldWith sign]
  apply TokenStream.weight_of_isMark_eq_false
  intro token hMem
  exact hCanonical.isMark_eq_false hSign hMem

namespace Parse

/- A statement takes at least its tokens off a stream. -/
theorem weight_of_statement
    {state after : State}
    {stmt : Stmt}
    (h : statement state = (.done stmt, after)) :
    stmt.yield.length
        + TokenStream.weight after.advance.stream.rest ≤
      TokenStream.weight state.stream.rest := by
  rcases reads_of_statement h with
    ⟨hCanonical, sign, middle, hSign, hReads, -, rfl⟩
  have hAfter :
      (stmt.leave ⟨middle, state.log⟩).advance.stream.rest
        <:+ middle.rest :=
    (TokenStream.advance_suffix _).trans
      (later_leave stmt ⟨middle, state.log⟩).suffix
  have hLe := TokenStream.weight_le_of_suffix hAfter
  rw [hReads.rest_eq, TokenStream.weight_append,
    hCanonical.weight_yieldWith hSign]
  omega

/- A program has no more tokens than the parse had places. -/
theorem Course.size_le
    {state final : State}
    {result : Except Fault Program}
    (hCourse : Course state result final)
    {program : Program}
    (hResult : result = .ok program) :
    Program.size program ≤
      TokenStream.weight state.stream.rest := by
  induction hCourse generalizing program with
  | finished hFinished =>
      cases hResult
      exact Nat.zero_le _
  | @done state after final stmt later hUnfinished
      hAttempt hLater ih =>
      cases hResult
      have hLaterLe := ih rfl
      have hOwn := weight_of_statement hAttempt
      rw [Program.size_cons]
      omega
  | doneFatal hUnfinished hAttempt hLater ih =>
      cases hResult
  | @failed state after final raised result hUnfinished
      hAttempt hLater ih =>
      have hStep := suffix_statement state
      rw [hAttempt] at hStep
      have hSuffix :
          (after.record raised).advance.stream.rest <:+
            state.stream.rest :=
        (TokenStream.advance_suffix _).trans hStep
      exact Nat.le_trans (ih hResult)
        (TokenStream.weight_le_of_suffix hSuffix)
  | fatal hUnfinished hAttempt => cases hResult

end Parse

end LetLang

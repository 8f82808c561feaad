import LetLang.Proofs.Numeral
import LetLang.Proofs.Parse.Blocks

/-
  Faults: where they come from, and what they leave behind.

  Only one token makes a fault: an integer whose text cannot
  be read. No rule goes on behind it and none records it, so
  it is the last token that is passed, however deep in an
  expression it stands, and the log is the log from before
  the attempt that came upon it.

  Key definitions include:
    * `TokenStream.PassedLast`
    * `Parse.Task.FaultBy`

  Main declarations:
    * `Parse.Trace.faultBy`
    * `Parse.StatementTrace.passedLast`
    * `Parse.run_fault`
-/

------------------------------------------------------------
-- The Last Token Passed
------------------------------------------------------------

namespace LetLang

namespace TokenStream

/-
  Between two streams places are passed, and the last one of
  them holds a given token.
-/
def PassedLast
    (stream : TokenStream)
    (token : Token)
    (after : TokenStream) : Prop :=
  ∃ i, stream.get? i = some token ∧
    after = stream.skip (i + 1)

/- A current token is the last one passed by passing it. -/
theorem passedLast_of_current
    {stream : TokenStream}
    {token : Token}
    (hCurrent : stream.current = some token) :
    stream.PassedLast token stream.advance := by
  refine ⟨0, ?_, ?_⟩
  · rw [get?_zero, hCurrent]
  · simp [advance, skip]

/- What was passed before does not matter. -/
theorem Later.passedLast
    {stream middle after : TokenStream}
    {token : Token}
    (hLater : stream.Later middle)
    (h : middle.PassedLast token after) :
    stream.PassedLast token after := by
  rcases hLater with ⟨n, rfl⟩
  rcases h with ⟨i, hToken, rfl⟩
  refine ⟨n + i, ?_, ?_⟩
  · rw [← get?_skip, hToken]
  · rw [skip_skip, Nat.add_assoc]

/- A token other than the end token is listed. -/
theorem mem_rest_of_get?
    {stream : TokenStream}
    {token : Token}
    {i : Nat}
    (h : stream.get? i = some token)
    (hKind : token.kind ≠ .eof) :
    some token ∈ stream.rest := by
  unfold get? at h
  cases hPlace : stream.rest[i]? with
  | some place =>
      rw [hPlace] at h
      have hSame : place = some token := h
      subst hSame
      exact List.mem_of_getElem? hPlace
  | none =>
      rw [hPlace] at h
      have hBeyond : stream.beyond = some token := h
      unfold beyond at hBeyond
      split at hBeyond
      · cases hBeyond
        exact absurd rfl hKind
      · cases hBeyond

end TokenStream

------------------------------------------------------------
-- Faults of Expressions
------------------------------------------------------------

namespace Parse

open TokenStream

/- An operand of one token has no fault but an integer's. -/
theorem integer_eq_of_leaf_eq_fatal
    {token : Token}
    {fault : Fault}
    (hLeaf : leaf token = .fatal fault) :
    token.kind = .int ∧ token.integer = .error fault := by
  unfold leaf at hLeaf
  split at hLeaf
  · cases hLeaf
  · rename_i hKind
    split at hLeaf
    · cases hLeaf
    · rename_i found hFound
      cases hLeaf
      exact ⟨hKind, hFound⟩
  · cases hLeaf
  · cases hLeaf
  · cases hLeaf

/-
  What it means for a token to end a task. The first token
  of an operand has been passed already, and may be it.
-/
def Task.FaultBy
    (stream : TokenStream)
    (token : Token)
    (after : TokenStream) : Task → Prop
  | .expression _ => stream.PassedLast token after
  | .operand first =>
      (token = first ∧ after = stream) ∨
        stream.PassedLast token after
  | .climb _ _ => stream.PassedLast token after

/-
  A task that ends with a fault is ended by an integer that
  has this fault.
-/
theorem Trace.faultBy
    {task : Task}
    {stream after : TokenStream}
    {attempt : Attempt}
    (hTrace : Trace task stream attempt after)
    {fault : Fault}
    (hFatal : attempt = .fatal fault) :
    ∃ token : Token,
      token.kind = .int ∧ token.integer = .error fault ∧
        task.FaultBy stream token after := by
  induction hTrace with
  | missing hCurrent => cases hFatal
  | expressionDone hCurrent hOperand hClimb ihOperand
      ihClimb =>
      rcases ihClimb hFatal with
        ⟨token, hKind, hFault, hLast⟩
      exact
        ⟨token, hKind, hFault,
          hOperand.later.of_advance.passedLast hLast⟩
  | expressionFailed hCurrent hOperand => cases hFatal
  | expressionFatal hCurrent hOperand ihOperand =>
      rcases ihOperand hFatal with
        ⟨token, hKind, hFault, ⟨rfl, rfl⟩ | hLast⟩
      · exact
          ⟨token, hKind, hFault,
            passedLast_of_current hCurrent⟩
      · exact
          ⟨token, hKind, hFault,
            (later_advance _).passedLast hLast⟩
  | @leaf token stream hUnary =>
      rcases integer_eq_of_leaf_eq_fatal hFatal with
        ⟨hKind, hFault⟩
      exact ⟨token, hKind, hFault, Or.inl ⟨rfl, rfl⟩⟩
  | prefixDone hUnary hRight => cases hFatal
  | prefixFailed hUnary hRight => cases hFatal
  | prefixFatal hUnary hRight ihRight =>
      rcases ihRight hFatal with
        ⟨token, hKind, hFault, hLast⟩
      exact ⟨token, hKind, hFault, Or.inr hLast⟩
  | stop hStop => cases hFatal
  | climbDone hCurrent hLevel hAbove hRight hClimb ihRight
      ihClimb =>
      rcases ihClimb hFatal with
        ⟨token, hKind, hFault, hLast⟩
      exact
        ⟨token, hKind, hFault,
          hRight.later.of_advance.passedLast hLast⟩
  | climbFailed hCurrent hLevel hAbove hRight =>
      cases hFatal
  | climbFatal hCurrent hLevel hAbove hRight ihRight =>
      rcases ihRight hFatal with
        ⟨token, hKind, hFault, hLast⟩
      exact
        ⟨token, hKind, hFault,
          (later_advance _).passedLast hLast⟩

------------------------------------------------------------
-- Faults of Statements and Programs
------------------------------------------------------------

/-
  An attempt that ends with a fault is ended by an integer
  that has this fault, and records nothing.
-/
theorem StatementTrace.passedLast
    {state after : State}
    {outcome : Outcome Diagnostic Stmt}
    (hTrace : StatementTrace state outcome after)
    {fault : Fault}
    (hFatal : outcome = .fatal fault) :
    (∃ token : Token,
      token.kind = .int ∧ token.integer = .error fault ∧
        state.stream.PassedLast token after.stream) ∧
      after.log = state.log := by
  cases hTrace with
  | unnamed hLet hName => cases hFatal
  | unsigned hLet hPeek hName hSign => cases hFatal
  | done hOpening hExpression => cases hFatal
  | failed hOpening hExpression => cases hFatal
  | fatal hOpening hExpression =>
      cases hFatal
      rcases State.trace_of_fatal hExpression with
        ⟨hFault, hLog⟩
      rcases hFault.faultBy rfl with
        ⟨token, hKind, hInteger, hLast⟩
      exact
        ⟨⟨token, hKind, hInteger,
          hOpening.later.passedLast hLast⟩,
          hLog.trans hOpening.log_eq⟩

/-
  A parse that ends with a fault: rounds lead to a state in
  which the attempt that ends so is made, and an integer of
  this attempt is the last token passed.
-/
theorem exists_leads_of_run
    {stream : TokenStream}
    {fault : Fault}
    (hFault : (run stream).program = .error fault) :
    ∃ rounds last token,
      Leads (State.ofStream stream) rounds last ∧
        statement last =
          (.fatal fault, (run stream).final) ∧
        token.kind = .int ∧
        token.integer = .error fault ∧
        last.stream.PassedLast token
          (run stream).final.stream := by
  rcases
    (course_program (State.ofStream stream)).exists_leads
      hFault with
    ⟨rounds, last, hLeads, hFatal⟩
  rcases
    (statementTrace_iff.mpr hFatal).passedLast rfl with
    ⟨⟨token, hKind, hInteger, hLast⟩, -⟩
  exact
    ⟨rounds, last, token, hLeads, hFatal, hKind, hInteger,
      hLast⟩

/- If every integer of a stream fits, there is no fault. -/
theorem run_of_fits
    {stream : TokenStream}
    (hFits :
      ∀ token, some token ∈ stream.rest →
        token.kind = .int → Numeral.Fits token.literal) :
    ∃ program, (run stream).program = .ok program := by
  cases hProgram : (run stream).program with
  | ok program => exact ⟨program, rfl⟩
  | error fault =>
      rcases exists_leads_of_run hProgram with
        ⟨rounds, last, token, hLeads, -, hKind, hInteger,
          hLast⟩
      rcases hLeads.later.passedLast hLast with
        ⟨i, hToken, -⟩
      have hEof : token.kind ≠ .eof := by
        rw [hKind]
        decide
      have hBad : ¬ Numeral.Fits token.literal :=
        Token.exists_fault_iff.mp ⟨fault, hInteger⟩
      exact
        (hBad
          (hFits token (mem_rest_of_get? hToken hEof)
            hKind)).elim

/-
  Faults are exactly those of integers that do not fit: if
  all integers of a stream fit, its parse ends with a
  program. A fault is that of some integer, which is the
  last token passed; the places that are visible then are
  those behind it. The log consists of the blocks of the
  rounds before, and the attempt that came upon the integer
  has added nothing to it.
-/
theorem run_fault
    (stream : TokenStream) :
    ((∀ token, some token ∈ stream.rest →
        token.kind = .int → Numeral.Fits token.literal) →
      ∃ program, (run stream).program = .ok program) ∧
    ∀ fault, (run stream).program = .error fault →
      ∃ i token,
        stream.get? i = some token ∧
          token.kind = .int ∧
          token.integer = .error fault ∧
          (run stream).final.stream =
            stream.skip (i + 1) ∧
          (run stream).final.stream.current =
            stream.get? (i + 1) ∧
          ∃ rounds last,
            Leads (State.ofStream stream) rounds last ∧
              (∃ n ≤ i, last.stream = stream.skip n) ∧
              statement last =
                (.fatal fault, (run stream).final) ∧
              (run stream).final.log = last.log ∧
              Blocks 0 rounds
                (run stream).final.log.toList := by
  refine ⟨run_of_fits, ?_⟩
  intro fault hFault
  rcases exists_leads_of_run hFault with
    ⟨rounds, last, token, hLeads, hFatal, hKind, hInteger,
      j, hToken, hFinal⟩
  rcases hLeads.later with ⟨n, hLast⟩
  have hLog : (run stream).final.log = last.log :=
    ((statementTrace_iff.mpr hFatal).passedLast rfl).2
  rcases hLeads.exists_blocks with ⟨errors, hBlocks, hErrors⟩
  have hBlocksLog : last.log.toList = errors := hErrors
  have hPlace : last.stream = stream.skip n := hLast
  rw [hPlace, get?_skip] at hToken
  rw [hPlace, skip_skip, ← Nat.add_assoc] at hFinal
  refine
    ⟨n + j, token, hToken, hKind, hInteger, hFinal, ?_,
      rounds, last, hLeads, ⟨n, Nat.le_add_right n j, hPlace⟩,
      hFatal, hLog, ?_⟩
  · rw [hFinal, current_skip]
  · rw [hLog, hBlocksLog]
    exact hBlocks

/-
  A number that fits, among tokens that make no sense, and
  the number one above the largest that fits, deep in an
  expression that comes after an attempt that failed.
-/
theorem run_fault_operators :
    (∃ program,
      (run (.ofTokens
        [⟨.illegal, "let"⟩, ⟨.int, "007"⟩])).program =
          .ok program) ∧
      ∃ fault i token rounds,
        (source "*; 1 + -9223372036854775808").program =
            .error fault ∧
          (TokenStream.ofSource
            "*; 1 + -9223372036854775808").get? i =
              some token ∧
          token.integer = .error fault ∧
          Blocks 0 rounds
            (source
              "*; 1 + -9223372036854775808").final.log.toList ∧
          (source
            "*; 1 + -9223372036854775808").final.log.size =
              2 := by
  constructor
  · apply (run_fault _).1
    intro token hToken hKind
    have hEither :
        token = ⟨.illegal, "let"⟩ ∨ token = ⟨.int, "007"⟩ := by
      simpa [ofTokens, ofPlaces] using hToken
    rcases hEither with rfl | rfl
    · cases hKind
    · decide
  · cases hFault :
        (source "*; 1 + -9223372036854775808").program with
    | ok program =>
        have hNone :
            (source
              "*; 1 + -9223372036854775808").program.toOption =
                none := by
          decide +kernel
        rw [hFault] at hNone
        cases hNone
    | error fault =>
        rcases (run_fault _).2 fault hFault with
          ⟨i, token, hToken, -, hInteger, -, -, rounds, -, -,
            -, -, -, hBlocks⟩
        exact
          ⟨fault, i, token, rounds, rfl, hToken, hInteger,
            hBlocks, by decide +kernel⟩

end Parse

end LetLang

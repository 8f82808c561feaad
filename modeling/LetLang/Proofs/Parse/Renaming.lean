import LetLang.Proofs.Diagnostic.Translation
import LetLang.Proofs.Parse.Fatal
import LetLang.Proofs.Renaming

/-
  A parse looks at the kinds of tokens and never at their
  texts, but for the integers.

  So renaming comes to the same before a parse and behind
  it: the parse of renamed tokens is the renamed parse, with
  its trees, its errors, and the place where it stops. This
  is shown for each rule, from the places of a stream up to
  whole programs.

  Key definitions include:
    * `TokenStream.rename`
    * `Attempt.rename`
    * `Parse.State.rename`
    * `Parse.Reply.rename`

  Main declarations:
    * `Parse.Trace.rename`
    * `Parse.statement_rename`
    * `Parse.Course.rename`
    * `Parse.run_rename`
-/

namespace LetLang

variable
  (f : Token.Renaming)

------------------------------------------------------------
-- Streams
------------------------------------------------------------

namespace TokenStream

/- Rename the tokens that are listed. -/
def rename
    (stream : TokenStream) : TokenStream :=
  { stream with rest := stream.rest.map (Option.map f) }

/-
  A renaming keeps what a stream holds after its listed
  places. It does so if there is nothing.
-/
def EndKept
    (stream : TokenStream) : Prop :=
  stream.beyond.map f = stream.beyond

/- The end of a list of tokens is kept. -/
theorem endKept_ofTokens
    (tokens : List Token) :
    (ofTokens tokens).EndKept f :=
  rfl

theorem Later.endKept
    {f : Token.Renaming}
    {stream after : TokenStream}
    (hLater : stream.Later after)
    (hEnd : stream.EndKept f) :
    after.EndKept f := by
  rcases hLater with ⟨n, rfl⟩
  exact hEnd

theorem ofTokens_map
    (tokens : List Token) :
    ofTokens (tokens.map f) = (ofTokens tokens).rename f := by
  simp [ofTokens, ofPlaces, rename, Function.comp_def]

@[simp]
theorem advance_rename
    (stream : TokenStream) :
    (stream.rename f).advance = stream.advance.rename f := by
  simp [advance, rename]

theorem skip_rename
    (stream : TokenStream)
    (n : Nat) :
    (stream.rename f).skip n = (stream.skip n).rename f := by
  simp [skip, rename]

variable
  {f}
  {stream : TokenStream}
  (hEnd : stream.EndKept f)

include hEnd

theorem get?_rename
    (i : Nat) :
    (stream.rename f).get? i = (stream.get? i).map f := by
  have hBeyond : (stream.rename f).beyond = stream.beyond :=
    rfl
  unfold get?
  rw [hBeyond]
  cases hPlace : stream.rest[i]? with
  | some place => simp [rename, hPlace]
  | none =>
      have hKept : stream.beyond.map f = stream.beyond := hEnd
      simp [rename, hPlace, hKept]

theorem current_rename :
    (stream.rename f).current = stream.current.map f := by
  rw [← get?_zero, get?_rename hEnd, get?_zero]

theorem peek_rename :
    (stream.rename f).peek = stream.peek.map f := by
  rw [← get?_one, get?_rename hEnd, get?_one]

theorem current_rename_of_current
    {token : Token}
    (hCurrent : stream.current = some token) :
    (stream.rename f).current = some (f token) := by
  rw [current_rename hEnd, hCurrent]
  rfl

theorem currentIs_rename
    (kind : Token.Kind) :
    (stream.rename f).currentIs kind =
      stream.currentIs kind := by
  unfold currentIs
  rw [current_rename hEnd, Option.any_map]
  simp [f.kind_apply]

theorem peekIs_rename
    (kind : Token.Kind) :
    (stream.rename f).peekIs kind = stream.peekIs kind := by
  unfold peekIs
  rw [peek_rename hEnd, Option.any_map]
  simp [f.kind_apply]

theorem bindsAbove_rename
    (floor : Level) :
    (stream.rename f).bindsAbove floor =
      stream.bindsAbove floor := by
  unfold bindsAbove
  rw [current_rename hEnd, Option.any_map]
  simp [f.kind_apply]

end TokenStream

------------------------------------------------------------
-- Expressions
------------------------------------------------------------

/- Rename what comes of an attempt. -/
def Attempt.rename
    (attempt : Attempt) : Attempt :=
  (attempt.map (Expr.rename f)).mapFailure
    (Failure.rename f)

namespace Parse

open TokenStream

/- Rename what a task starts from. -/
def Task.rename : Task → Task
  | .expression floor => .expression floor
  | .operand token => .operand (f token)
  | .climb floor left => .climb floor (left.rename f)

/- An operand of one token is renamed with its token. -/
theorem leaf_rename
    (token : Token) :
    leaf (f token) = Attempt.rename f (leaf token) := by
  by_cases hInt : token.kind = .int
  · unfold leaf
    rw [f.apply_int token hInt, hInt]
    cases token.integer with
    | ok value =>
        have hTree :
            (Expr.int token value).rename f =
              .int token value := by
          simp only [Expr.rename, f.apply_int token hInt]
        simp only [Attempt.rename, Outcome.map,
          Outcome.mapFailure, hTree]
    | error fault => rfl
  · have hTruth := Expr.truth_rename f token
    unfold leaf
    rw [f.kind_apply]
    split
    · rfl
    · exact absurd ‹_› hInt
    · rw [← hTruth]
      rfl
    · rw [← hTruth]
      rfl
    · rfl

/-
  A task on a renamed stream does the same. The induction is
  on what it does on the stream itself.
-/
theorem Trace.rename
    {f : Token.Renaming}
    {task : Task}
    {stream after : TokenStream}
    {attempt : Attempt}
    (hTrace : Trace task stream attempt after)
    (hEnd : stream.EndKept f) :
    Trace (task.rename f) (stream.rename f)
      (Attempt.rename f attempt) (after.rename f) := by
  induction hTrace with
  | missing hCurrent =>
      refine .missing ?_
      rw [current_rename hEnd, hCurrent]
      rfl
  | expressionDone hCurrent hOperand hClimb ihOperand
      ihClimb =>
      have hFirst := ihOperand hEnd
      have hLater :=
        ihClimb (hOperand.later.of_advance.endKept hEnd)
      rw [← advance_rename] at hFirst
      exact
        .expressionDone
          (current_rename_of_current hEnd hCurrent) hFirst
          hLater
  | expressionFailed hCurrent hOperand ihOperand =>
      have hFirst := ihOperand hEnd
      rw [← advance_rename] at hFirst
      exact
        .expressionFailed
          (current_rename_of_current hEnd hCurrent) hFirst
  | expressionFatal hCurrent hOperand ihOperand =>
      have hFirst := ihOperand hEnd
      rw [← advance_rename] at hFirst
      exact
        .expressionFatal
          (current_rename_of_current hEnd hCurrent) hFirst
  | @leaf token stream hUnary =>
      rw [← leaf_rename]
      refine .leaf ?_
      rw [f.kind_apply]
      exact hUnary
  | @prefixDone token right stream after hUnary hRight
      ihRight =>
      refine .prefixDone ?_ (ihRight hEnd)
      rw [f.kind_apply]
      exact hUnary
  | @prefixFailed token failure stream after hUnary hRight
      ihRight =>
      refine .prefixFailed ?_ (ihRight hEnd)
      rw [f.kind_apply]
      exact hUnary
  | @prefixFatal token fault stream after hUnary hRight
      ihRight =>
      refine .prefixFatal ?_ (ihRight hEnd)
      rw [f.kind_apply]
      exact hUnary
  | @stop floor left stream hStop =>
      refine .stop ?_
      rw [bindsAbove_rename hEnd]
      exact hStop
  | @climbDone floor level token left right attempt stream
      middle after hCurrent hLevel hAbove hRight hClimb
      ihRight ihClimb =>
      have hFirst := ihRight hEnd
      have hLater :=
        ihClimb (hRight.later.of_advance.endKept hEnd)
      rw [← f.kind_apply] at hLevel
      rw [← advance_rename] at hFirst
      exact
        .climbDone
          (current_rename_of_current hEnd hCurrent) hLevel
          hAbove hFirst hLater
  | @climbFailed floor level token left failure stream after
      hCurrent hLevel hAbove hRight ihRight =>
      have hFirst := ihRight hEnd
      rw [← f.kind_apply] at hLevel
      rw [← advance_rename] at hFirst
      exact
        .climbFailed
          (current_rename_of_current hEnd hCurrent) hLevel
          hAbove hFirst
  | @climbFatal floor level token left fault stream after
      hCurrent hLevel hAbove hRight ihRight =>
      have hFirst := ihRight hEnd
      rw [← f.kind_apply] at hLevel
      rw [← advance_rename] at hFirst
      exact
        .climbFatal
          (current_rename_of_current hEnd hCurrent) hLevel
          hAbove hFirst

------------------------------------------------------------
-- States
------------------------------------------------------------

namespace State

/- Rename what is ahead, and what the errors are about. -/
def rename
    (state : State) : State :=
  ⟨state.stream.rename f,
    state.log.translate (ParseError.rename f)⟩

@[simp]
theorem advance_rename
    (state : State) :
    (state.rename f).advance = state.advance.rename f := by
  simp [advance, rename]

theorem record_rename
    (state : State)
    (diagnostic : Diagnostic) :
    (state.rename f).record
        (diagnostic.translate (ParseError.rename f)) =
      (state.record diagnostic).rename f := by
  simp [record, rename]

end State

/- Rename a reply, of which the results are renamed so. -/
def Reply.rename {α : Type}
    (result : α → α)
    (reply : Reply α) : Reply α :=
  ((reply.1.map result).mapFailure
      (Diagnostic.translate (ParseError.rename f)),
    reply.2.rename f)

/- What is settled can be renamed before or after. -/
theorem State.settle_rename
    (state : State)
    (attempted : Attempt × TokenStream) :
    (state.rename f).settle
        (Attempt.rename f attempted.1,
          attempted.2.rename f) =
      Reply.rename f (Expr.rename f)
        (state.settle attempted) := by
  rcases attempted with ⟨expr | failure | fault, after⟩
  · rfl
  · have hRaise :=
      Failure.raise_translate
        (failure.obstacle.error_rename f).symm
        (fun form => rfl) failure.waiting state.log
    simp only [Attempt.rename, Outcome.map,
      Outcome.mapFailure, settle, Failure.rename, rename,
      hRaise]
    rfl
  · rfl

/- So can an expression. -/
theorem State.expression_rename
    {f : Token.Renaming}
    {state : State}
    (hEnd : state.stream.EndKept f)
    (floor : Level) :
    (state.rename f).expression floor =
      Reply.rename f (Expr.rename f)
        (state.expression floor) := by
  have hTrace :=
    (traced (.expression floor) state.stream).rename hEnd
  have hResult := hTrace.result_eq
  have hSettle :=
    state.settle_rename f
      (Parse.expression floor state.stream)
  rw [State.expression_eq_settle, State.expression_eq_settle,
    ← hSettle]
  exact congrArg (state.rename f).settle hResult

------------------------------------------------------------
-- Statements
------------------------------------------------------------

/- A renamed statement is opened like the statement. -/
theorem Opening.rename
    {f : Token.Renaming}
    {state start : State}
    {form : StatementForm}
    {make : Expr → Stmt}
    (hOpening : Opening state form make start)
    (hEnd : state.stream.EndKept f) :
    ∃ other,
      Opening (state.rename f) form other (start.rename f) ∧
        ∀ expr,
          other (expr.rename f) = (make expr).rename f := by
  cases hOpening with
  | @binding opening name hOpening hLet hPeek hName hSign =>
      refine ⟨.letStmt (f opening) (f name), ?_, ?_⟩
      · simp only [← State.advance_rename]
        refine .binding ?_ ?_ ?_ ?_ ?_
        · exact current_rename_of_current hEnd hOpening
        · rw [f.kind_apply, hLet]
        · exact (peek_rename hEnd).trans (by simp [hPeek])
        · rw [f.kind_apply, hName]
        · have hBehind :
              state.advance.advance.stream.EndKept f := hEnd
          simp only [State.advance_rename]
          exact (currentIs_rename hBehind _).trans hSign
      · intro expr
        rfl
  | @result opening hOpening hReturn =>
      refine ⟨.returnStmt (f opening), ?_, ?_⟩
      · simp only [← State.advance_rename]
        refine .result ?_ ?_
        · exact current_rename_of_current hEnd hOpening
        · rw [f.kind_apply, hReturn]
      · intro expr
        rfl
  | bare hNotLet hNotReturn =>
      refine ⟨fun expr => .exprStmt expr.first expr, ?_, ?_⟩
      · refine .bare ?_ ?_
        · exact (currentIs_rename hEnd _).trans hNotLet
        · exact (currentIs_rename hEnd _).trans hNotReturn
      · intro expr
        simp only [Stmt.rename, expr.first_rename f]

theorem leave_rename
    {f : Token.Renaming}
    {state : State}
    (hEnd : state.stream.EndKept f)
    (stmt : Stmt) :
    (stmt.rename f).leave (state.rename f) =
      (stmt.leave state).rename f := by
  cases stmt with
  | letStmt token name value => rfl
  | returnStmt token value => rfl
  | exprStmt token expr =>
      have hPeek :
          (state.rename f).stream.peekIs .semicolon =
            state.stream.peekIs .semicolon :=
        peekIs_rename hEnd _
      simp only [Stmt.rename, Stmt.leave, passBeforeSemicolon,
        hPeek]
      split
      · exact state.advance_rename f
      · rfl

theorem recordUnexpected_rename
    {f : Token.Renaming}
    {state : State}
    {found other : Option Token}
    (hFound : other = found.map f)
    (expected : Token.Kind) :
    (state.rename f).recordUnexpected expected other =
      (state.recordUnexpected expected found).rename f := by
  subst hFound
  exact
    state.record_rename f
      (Diagnostic.root (.unexpectedToken expected found))

/- An attempt at a statement does the same when renamed. -/
theorem StatementTrace.rename
    {f : Token.Renaming}
    {state after : State}
    {outcome : Outcome Diagnostic Stmt}
    (hTrace : StatementTrace state outcome after)
    (hEnd : state.stream.EndKept f) :
    StatementTrace (state.rename f)
      (Reply.rename f (Stmt.rename f) (outcome, after)).1
      (after.rename f) := by
  cases hTrace with
  | unnamed hLet hName =>
      have hPeek := peek_rename hEnd
      rw [← recordUnexpected_rename hPeek]
      refine .unnamed ?_ ?_
      · exact (currentIs_rename hEnd _).trans hLet
      · intro name hMem
        have hOther :
            (state.stream.rename f).peek = some name := hMem
        rw [hPeek] at hOther
        rcases Option.map_eq_some_iff.mp hOther with
          ⟨old, hOld, rfl⟩
        rw [f.kind_apply]
        exact hName old hOld
  | @unsigned name hLet hPeek hName hSign =>
      have hBehind :
          state.advance.advance.stream.EndKept f := hEnd
      have hFound := current_rename hBehind
      rw [← recordUnexpected_rename hFound]
      have hOther :
          state.advance.advance.rename f =
            (state.rename f).advance.advance := by
        simp only [State.advance_rename]
      have hLetThere :
          (state.rename f).stream.currentIs .letWord =
            true :=
        (currentIs_rename hEnd _).trans hLet
      have hNameThere :
          (state.rename f).stream.peek = some (f name) :=
        (peek_rename hEnd).trans (by simp [hPeek])
      have hSignThere :
          (state.advance.advance.rename f).stream.currentIs
              .assign =
            false :=
        (currentIs_rename hBehind _).trans hSign
      rw [hOther] at hSignThere
      have hUnsigned :=
        StatementTrace.unsigned hLetThere hNameThere
          ((f.kind_apply name).trans hName) hSignThere
      rw [← hOther] at hUnsigned
      exact hUnsigned
  | @done start middle form make expr hOpening
      hExpression =>
      rcases hOpening.rename hEnd with
        ⟨other, hOther, hMake⟩
      have hStart := hOpening.later.endKept hEnd
      have hMiddle :=
        (State.later_of_expression hExpression).endKept hStart
      have hRenamed :=
        State.expression_rename hStart .lowest
      rw [hExpression] at hRenamed
      have hDone := StatementTrace.done hOther hRenamed
      rw [hMake, leave_rename hMiddle] at hDone
      exact hDone
  | @failed start middle form make raised hOpening
      hExpression =>
      rcases hOpening.rename hEnd with ⟨other, hOther, -⟩
      have hStart := hOpening.later.endKept hEnd
      have hRenamed :=
        State.expression_rename hStart .lowest
      rw [hExpression] at hRenamed
      have hSize :
          (middle.rename f).log.size = middle.log.size :=
        Log.size_translate _ middle.log
      have hFailed := StatementTrace.failed hOther hRenamed
      rw [State.record_rename, hSize] at hFailed
      exact hFailed
  | @fatal start middle form make fault hOpening
      hExpression =>
      rcases hOpening.rename hEnd with ⟨other, hOther, -⟩
      have hStart := hOpening.later.endKept hEnd
      have hRenamed :=
        State.expression_rename hStart .lowest
      rw [hExpression] at hRenamed
      exact .fatal hOther hRenamed

/- So the attempt can be renamed before or after. -/
theorem statement_rename
    {f : Token.Renaming}
    {state : State}
    (hEnd : state.stream.EndKept f) :
    statement (state.rename f) =
      Reply.rename f (Stmt.rename f) (statement state) :=
  ((statement_trace state).rename hEnd).statement_eq

------------------------------------------------------------
-- Programs
------------------------------------------------------------

theorem State.isFinished_rename
    {f : Token.Renaming}
    {state : State}
    (hEnd : state.stream.EndKept f) :
    (state.rename f).isFinished = state.isFinished := by
  have hCurrent :
      (state.rename f).stream.current =
        state.stream.current.map f :=
    current_rename hEnd
  unfold isFinished
  rw [hCurrent, Option.all_map]
  simp [f.kind_apply]

/-
  The course of a parse is the same when renamed. Each of
  its attempts leaves the end of the stream as it was.
-/
theorem Course.rename
    {f : Token.Renaming}
    {state final : State}
    {result : Except Fault Program}
    (hCourse : Course state result final)
    (hEnd : state.stream.EndKept f) :
    Course (state.rename f)
      (result.map (Program.rename f)) (final.rename f) := by
  have hUnfinishedOf
      {state : State}
      (hEnd : state.stream.EndKept f)
      (hUnfinished : state.isFinished = false) :
      (state.rename f).isFinished = false :=
    (State.isFinished_rename hEnd).trans hUnfinished
  have hAttemptOf
      {state after : State}
      {outcome : Outcome Diagnostic Stmt}
      (hEnd : state.stream.EndKept f)
      (hAttempt : statement state = (outcome, after)) :
      statement (state.rename f) =
        Reply.rename f (Stmt.rename f) (outcome, after) := by
    rw [statement_rename hEnd, hAttempt]
  induction hCourse with
  | finished hFinished =>
      exact
        .finished
          ((State.isFinished_rename hEnd).trans hFinished)
  | @done state after final stmt program hUnfinished
      hAttempt hLater ih =>
      have hRest :=
        ih ((later_of_statement hAttempt).endKept hEnd)
      rw [← State.advance_rename] at hRest
      exact
        .done (hUnfinishedOf hEnd hUnfinished)
          (hAttemptOf hEnd hAttempt) hRest
  | @doneFatal state after final stmt fault hUnfinished
      hAttempt hLater ih =>
      have hRest :=
        ih ((later_of_statement hAttempt).endKept hEnd)
      rw [← State.advance_rename] at hRest
      exact
        .doneFatal (hUnfinishedOf hEnd hUnfinished)
          (hAttemptOf hEnd hAttempt) hRest
  | @failed state after final raised result hUnfinished
      hAttempt hLater ih =>
      have hRest :=
        ih ((later_of_statement hAttempt).endKept hEnd)
      rw [← State.advance_rename, ← State.record_rename]
        at hRest
      exact
        .failed (hUnfinishedOf hEnd hUnfinished)
          (hAttemptOf hEnd hAttempt) hRest
  | fatal hUnfinished hAttempt =>
      exact
        .fatal (hUnfinishedOf hEnd hUnfinished)
          (hAttemptOf hEnd hAttempt)

/-
  The parse of a renamed list of tokens is the renamed parse
  of the list. In the program each node is made of the new
  token, with the old value; in the log each error is about
  the new token, at the old place and with the old cause.
  Both parses stop at the same place. If a fault ends one of
  them, the other ends with the same fault, of an integer
  that is the last token passed in both.
-/
theorem run_rename
    (tokens : List Token) :
    let old := run (ofTokens tokens)
    let new := run (ofTokens (tokens.map f))
    new.program = old.program.map (Program.rename f) ∧
      new.final = old.final.rename f ∧
      ∀ fault, old.program = .error fault →
        ∃ i token,
          tokens[i]? = some token ∧
            (tokens.map f)[i]? = some token ∧
            token.kind = .int ∧
            token.integer = .error fault ∧
            old.final.stream =
              (ofTokens tokens).skip (i + 1) ∧
            new.final.stream =
              (ofTokens (tokens.map f)).skip (i + 1) := by
  intro old new
  have hCourse :=
    (course_program (State.ofStream (ofTokens tokens))).rename
      (endKept_ofTokens f tokens)
  have hStart :
      (State.ofStream (ofTokens tokens)).rename f =
        State.ofStream (ofTokens (tokens.map f)) := by
    rw [ofTokens_map]
    simp [State.ofStream, State.rename]
  rw [hStart] at hCourse
  have hNew := hCourse.program_eq
  have hProgram :
      new.program = old.program.map (Program.rename f) :=
    congrArg Prod.fst hNew
  have hFinal : new.final = old.final.rename f :=
    congrArg Prod.snd hNew
  refine ⟨hProgram, hFinal, ?_⟩
  intro fault hFault
  rcases exists_leads_of_run hFault with
    ⟨rounds, last, token, hLeads, -, hKind, hInteger, hLast⟩
  rcases hLeads.later.passedLast hLast with
    ⟨i, hToken, hOld⟩
  have hPlace : tokens[i]? = some token := by
    rw [← get?_ofTokens]
    exact hToken
  have hStop :
      old.final.stream = (ofTokens tokens).skip (i + 1) :=
    hOld
  refine ⟨i, token, hPlace, ?_, hKind, hInteger, hStop, ?_⟩
  · rw [List.getElem?_map, hPlace, Option.map_some,
      f.apply_int token hKind]
  · rw [hFinal, ofTokens_map, skip_rename, ← hStop]
    rfl

/-
  Tokens that are all spelled like the word of a binding: an
  attempt that fails before one that succeeds, and an
  integer that does not fit below two operators.
-/
theorem run_rename_spelling :
    let f := Token.Renaming.spelling (fun _ => "let")
    let tokens := Scan.tokens "*; -a + 1".toList
    let faulty := Scan.tokens "-a + 9223372036854775808".toList
    let new := run (ofTokens (tokens.map f))
    new.program.toOption =
        some
          [.exprStmt ⟨.minus, "let"⟩
            (.infixOp ⟨.plus, "let"⟩
              (.prefixOp ⟨.minus, "let"⟩
                (.ident ⟨.ident, "let"⟩))
              (.int ⟨.int, "1"⟩ 1))] ∧
      new.final.log =
        #[⟨.noOperand ⟨.asterisk, "let"⟩, none⟩,
          ⟨.statementFailed .expression, some 0⟩] ∧
      ∃ fault i token,
        (run (ofTokens (faulty.map f))).program =
            .error fault ∧
          (faulty.map f)[i]? = some token ∧
          token.integer = .error fault ∧
          (run (ofTokens (faulty.map f))).final.stream =
            (ofTokens (faulty.map f)).skip (i + 1) := by
  intro f tokens faulty new
  rcases run_rename f tokens with ⟨hProgram, hFinal, -⟩
  refine ⟨?_, ?_, ?_⟩
  · rw [hProgram]
    decide +kernel
  · rw [hFinal]
    decide +kernel
  · have hNone :
        (run (ofTokens faulty)).program.toOption = none := by
      decide +kernel
    rcases run_rename f faulty with ⟨hProgram, -, hFault⟩
    cases hOld : (run (ofTokens faulty)).program with
    | ok program =>
        rw [hOld] at hNone
        cases hNone
    | error fault =>
        rcases hFault fault hOld with
          ⟨i, token, -, hToken, -, hInteger, -, hStream⟩
        rw [hOld] at hProgram
        exact
          ⟨fault, i, token, hProgram, hToken, hInteger,
            hStream⟩

end Parse

end LetLang

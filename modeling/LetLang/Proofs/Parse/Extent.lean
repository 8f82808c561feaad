import LetLang.Proofs.Parse.Blocks
import LetLang.Proofs.Parse.Sources
import LetLang.Proofs.Parse.Termination

/-
  How far a parse reaches into an endless stream.

  The extent of a stream is where its listed places end, as
  long as there are any left; behind them it grows with the
  places that are passed. The end token is passed in two
  ways only: as an operand that is none, where an attempt
  fails, and after the attempt. Then there is nothing left
  to attempt. So a parse that ends with a program has passed
  all that is listed and at most two end tokens, and it has
  made no more attempts than places were listed.

  Key definitions include:
    * `TokenStream.extent`
    * `TokenStream.pulled`

  Main declarations:
    * `Parse.extent_of_done`
    * `Parse.extent_of_failed`
    * `Parse.Rounds.extent_le`
    * `Parse.Rounds.length_le`
    * `Parse.run_bounded`
-/

------------------------------------------------------------
-- Extents
------------------------------------------------------------

namespace LetLang

namespace TokenStream

/- Where the listed places end, or the current one behind. -/
def extent
    (stream : TokenStream) : Nat :=
  stream.position + stream.rest.length

/-
  How many tokens a parser has taken from its source: those
  that it has passed, the current one and the next.
-/
def pulled
    (stream : TokenStream) : Nat :=
  stream.position + 2

variable
  {stream after : TokenStream}

/- Passing a place passes at most one behind the end. -/
theorem extent_advance_le
    (stream : TokenStream) :
    stream.advance.extent ≤ stream.extent + 1 := by
  simp only [extent, advance, List.length_tail]
  omega

theorem Later.extent_eq
    (h : stream.Later after)
    (hRest : after.rest ≠ []) :
    after.extent = stream.extent := by
  rcases h with ⟨n, rfl⟩
  have hDrop : stream.rest.drop n ≠ [] := hRest
  have hLess : n < stream.rest.length :=
    Nat.lt_of_not_le (mt List.drop_eq_nil_of_le hDrop)
  simp only [extent, skip, List.length_drop]
  omega

theorem Reads.extent_eq
    {tokens : List Token}
    (h : stream.Reads tokens after) :
    after.extent = stream.extent := by
  unfold extent
  rw [h.position_eq, h.rest_eq, List.length_append,
    List.length_map]
  omega

/- A place before a listed semicolon is not the end. -/
theorem extent_advance_of_semicolon
    (hPeek : stream.peekIs .semicolon = true) :
    stream.advance.extent = stream.extent := by
  cases hRest : stream.rest with
  | nil =>
      have hBeyond :
          stream.beyond.any
              (fun token => token.kind == .semicolon) =
            true := by
        simpa [peekIs, peek, hRest] using hPeek
      unfold beyond at hBeyond
      split at hBeyond
      · cases hBeyond
      · cases hBeyond
  | cons place rest =>
      simp only [extent, advance, hRest, List.tail_cons,
        List.length_cons]
      omega

end TokenStream

------------------------------------------------------------
-- Attempts
------------------------------------------------------------

namespace Parse

open TokenStream

/- An operand that is none is passed, also the end token. -/
theorem Stopped.extent_le
    {stream after : TokenStream}
    {obstacle : Obstacle}
    (h : Stopped stream obstacle after) :
    after.extent ≤ stream.extent + 1 := by
  cases h with
  | missing hReads hCurrent =>
      rw [← hReads.extent_eq]
      exact Nat.le_succ _
  | @unusable token passed place hReads hCurrent =>
      rw [← hReads.extent_eq]
      exact place.extent_advance_le

/- A statement leaves its stream before the end. -/
theorem extent_of_done
    {state after : State}
    {stmt : Stmt}
    (hAttempt : statement state = (.done stmt, after)) :
    after.stream.extent = state.stream.extent := by
  rcases reads_of_statement hAttempt with
    ⟨-, sign, middle, -, hReads, -, rfl⟩
  rw [← hReads.extent_eq]
  cases stmt with
  | letStmt token name value => rfl
  | returnStmt token value => rfl
  | exprStmt token expr =>
      simp only [Stmt.leave, passBeforeSemicolon]
      split
      · rename_i hPeek
        exact extent_advance_of_semicolon hPeek
      · rfl

/- Behind its opening an attempt passes one place more. -/
theorem extent_of_failed
    {state after : State}
    {raised : Diagnostic}
    (hAttempt : statement state = (.failed raised, after)) :
    after.stream.extent ≤ state.stream.extent + 1 := by
  cases statementTrace_iff.mpr hAttempt with
  | unnamed hLet hName => exact Nat.le_succ _
  | @unsigned name hLet hPeek hName hSign =>
      rcases exists_current_of_currentIs hLet with
        ⟨opening, hOpening, hKind⟩
      have hFirst :
          state.stream.advance.extent = state.stream.extent :=
        (reads_of_kind hOpening hKind rfl).extent_eq
      have hCurrent :
          state.stream.advance.current = some name := by
        rw [current_advance, hPeek]
      have hSecond :
          state.stream.advance.advance.extent =
            state.stream.advance.extent :=
        (reads_of_kind hCurrent hName rfl).extent_eq
      have hBoth := hSecond.trans hFirst
      exact Nat.le_succ_of_le (Nat.le_of_eq hBoth)
  | @failed start middle form make cause hOpening
      hExpression =>
      rcases hOpening.reads with ⟨sign, tokens, -, hReads, -⟩
      rcases State.exists_failure hExpression with
        ⟨failure, hTrace, -⟩
      have hStopped :
          Stopped start.stream failure.obstacle
            middle.stream :=
        hTrace.stoppedBy rfl
      rw [← hReads.extent_eq]
      exact hStopped.extent_le

------------------------------------------------------------
-- Rounds
------------------------------------------------------------

/-
  Where there is something left to attempt, the extent is
  still that of a stream before. An attempt and the place
  that is passed after it raise it by two at most.
-/
theorem extent_of_attempt
    {stream : TokenStream}
    {state after : State}
    {outcome : Outcome Diagnostic Stmt}
    (hLater : stream.Later state.stream)
    (hUnfinished : state.isFinished = false)
    (hAttempt : statement state = (outcome, after))
    (hAfter :
      after.stream.extent ≤ state.stream.extent + 1) :
    stream.Later after.stream.advance ∧
      after.stream.advance.extent ≤ stream.extent + 2 := by
  have hSame : state.stream.extent = stream.extent :=
    hLater.extent_eq
      (List.ne_nil_of_length_pos
        (length_pos_of_not_isFinished hUnfinished))
  have hNext := after.stream.extent_advance_le
  constructor
  · exact
      (hLater.trans (later_of_statement hAttempt)).trans
        (later_advance _)
  · omega

/-
  Rounds that start behind a stream end at most two places
  behind its end, if they start so.
-/
theorem Rounds.extent_le_of_later
    {stream : TokenStream}
    {state final : State}
    {rounds : List Round}
    (hRounds : Rounds state rounds final)
    (hLater : stream.Later state.stream)
    (hExtent : state.stream.extent ≤ stream.extent + 2) :
    final.stream.extent ≤ stream.extent + 2 := by
  induction hRounds with
  | finished hFinished => exact hExtent
  | done hUnfinished hAttempt hRest ih =>
      have hAfter := Nat.le_of_eq (extent_of_done hAttempt)
      rcases
        extent_of_attempt hLater hUnfinished hAttempt
          (Nat.le_succ_of_le hAfter) with ⟨hNext, hLess⟩
      exact ih hNext hLess
  | failed hUnfinished hAttempt hRest ih =>
      rcases
        extent_of_attempt hLater hUnfinished hAttempt
          (extent_of_failed hAttempt) with ⟨hNext, hLess⟩
      exact ih hNext hLess

/- So does a whole parse. -/
theorem Rounds.extent_le
    {state final : State}
    {rounds : List Round}
    (hRounds : Rounds state rounds final) :
    final.stream.extent ≤ state.stream.extent + 2 :=
  hRounds.extent_le_of_later (Later.refl _)
    (Nat.le_add_right _ _)

/- Every round passes a listed place. -/
theorem Rounds.length_le
    {state final : State}
    {rounds : List Round}
    (hRounds : Rounds state rounds final) :
    rounds.length ≤ state.stream.rest.length := by
  induction hRounds with
  | finished hFinished => exact Nat.zero_le _
  | done hUnfinished hAttempt hRest ih =>
      have hLess := length_lt_of_attempt hUnfinished hAttempt
      exact Nat.lt_of_le_of_lt ih hLess
  | failed hUnfinished hAttempt hRest ih =>
      have hLess := length_lt_of_attempt hUnfinished hAttempt
      exact Nat.lt_of_le_of_lt ih hLess

/- A parse has no more statements and failures than places. -/
theorem length_add_failedStatements_le
    {stream : TokenStream}
    {program : Program}
    (hProgram : (run stream).program = .ok program) :
    program.length
        + Log.failedStatements
          (run stream).final.log.toList ≤
      stream.rest.length := by
  rcases exists_rounds_of_run hProgram with
    ⟨rounds, hRounds, rfl⟩
  rcases hRounds.exists_blocks with ⟨errors, hBlocks, hLog⟩
  have hErrors : (run stream).final.log.toList = errors :=
    hLog
  rw [hErrors, ← hBlocks.length_eq]
  exact hRounds.length_le

end Parse

------------------------------------------------------------
-- Scanned Sources
------------------------------------------------------------

/- The end token is read behind all tokens and not before. -/
theorem Scan.Cursor.kind_next_eq_eof_iff
    (cursor : Cursor)
    (i : Nat) :
    (cursor.skip i).next.1.kind = .eof ↔
      (tokens cursor.ahead).length ≤ i := by
  rw [(cursor.skip i).next_eq.1, tokens_skip,
    List.headD_eq_head?_getD, List.head?_drop]
  constructor
  · intro hKind
    apply Nat.le_of_not_lt
    intro hLess
    rw [List.getElem?_eq_getElem hLess] at hKind
    exact
      Token.kind_ne_eof_of_mem_tokens (List.getElem_mem _)
        hKind
  · intro hLength
    rw [List.getElem?_eq_none hLength]
    rfl

namespace Parse

open TokenStream

/- What a parse of a cursor sees when it has ended. -/
theorem visible_of_ofCursor
    (cursor : Scan.Cursor) :
    let stop := (run (ofCursor cursor)).final.stream
    stop.current =
        some (cursor.skip stop.position).next.1 ∧
      stop.peek =
        some (cursor.skip (stop.position + 1)).next.1 := by
  intro stop
  rcases
    (course_program
      (State.ofStream (ofCursor cursor))).later with
    ⟨n, hLater⟩
  have hStop : stop = (ofCursor cursor).skip n := hLater
  have hPosition : stop.position = n := by
    rw [hStop]
    exact Nat.zero_add n
  rw [hPosition, hStop, ← get?_one, get?_skip, current_skip,
    cursor.get?_ofCursor, cursor.get?_ofCursor]
  exact ⟨rfl, rfl⟩

/- A parse of a cursor without a fault ends behind all. -/
theorem length_le_position
    {cursor : Scan.Cursor}
    {program : Program}
    (hProgram :
      (run (ofCursor cursor)).program = .ok program) :
    (Scan.tokens cursor.ahead).length ≤
      (run (ofCursor cursor)).final.stream.position := by
  rcases current_of_ofCursor hProgram with
    ⟨token, hCurrent, hKind⟩
  rw [(visible_of_ofCursor cursor).1] at hCurrent
  cases hCurrent
  exact (cursor.kind_next_eq_eof_iff _).mp hKind

/- It ends at most two places behind all. -/
theorem position_le_length
    {cursor : Scan.Cursor}
    {program : Program}
    (hProgram :
      (run (ofCursor cursor)).program = .ok program) :
    (run (ofCursor cursor)).final.stream.position ≤
      (Scan.tokens cursor.ahead).length + 2 := by
  rcases exists_rounds_of_run hProgram with
    ⟨rounds, hRounds, -⟩
  have hStart :
      (ofCursor cursor).extent =
        (Scan.tokens cursor.ahead).length := by
    simp [extent, ofCursor]
  have hExtent :
      (run (ofCursor cursor)).final.stream.extent ≤
        (ofCursor cursor).extent + 2 :=
    hRounds.extent_le
  rw [hStart] at hExtent
  exact Nat.le_trans (Nat.le_add_right _ _) hExtent

/-
  Every parse comes to an end, with bounds on how deeply its
  calls are nested and on its rounds. What is scanned goes
  on with end tokens without end, but a parse that ends with
  a program makes no more attempts than there are tokens. It
  ends at one of the first three end tokens, and so takes at
  most four of them from the source.
-/
theorem run_bounded :
    (∀ (task : Task) (stream : TokenStream),
      task.resultWithin (task.effort stream + 1) stream =
        some (task.result stream)) ∧
      (∀ stream : TokenStream,
        programWithin (stream.rest.length + 1)
            (State.ofStream stream) =
          some ((run stream).program, (run stream).final)) ∧
      ∀ (cursor : Scan.Cursor) (program : Program),
        (run (ofCursor cursor)).program = .ok program →
          let listed := (Scan.tokens cursor.ahead).length
          let final := (run (ofCursor cursor)).final
          let place := final.stream.position
          (∀ i,
              (cursor.skip i).next.1.kind = .eof ↔
                listed ≤ i) ∧
            final.stream.current =
              some (cursor.skip place).next.1 ∧
            final.stream.peek =
              some (cursor.skip (place + 1)).next.1 ∧
            program.length
                + Log.failedStatements final.log.toList ≤
              listed ∧
            listed ≤ place ∧
            place ≤ listed + 2 ∧
            final.stream.pulled ≤ listed + 4 := by
  refine ⟨?_, ?_, ?_⟩
  · intro task stream
    have hTrace := traced task stream
    exact hTrace.resultWithin_eq (Nat.lt_succ_self _)
  · intro stream
    have hCourse := course_program (State.ofStream stream)
    exact hCourse.programWithin_eq (Nat.lt_succ_self _)
  · intro cursor program hProgram listed final place
    rcases visible_of_ofCursor cursor with
      ⟨hCurrent, hPeek⟩
    have hPlaces :
        (ofCursor cursor).rest.length = listed :=
      List.length_map ..
    have hAttempts :=
      length_add_failedStatements_le hProgram
    rw [hPlaces] at hAttempts
    have hLast : place ≤ listed + 2 :=
      position_le_length hProgram
    exact
      ⟨cursor.kind_next_eq_eof_iff, hCurrent, hPeek,
        hAttempts, length_le_position hProgram, hLast,
        Nat.add_le_add_right hLast 2⟩

/-
  A result without a value takes the end token as one: the
  bounds on the places passed and on the tokens taken are
  reached.
-/
theorem run_bounded_result :
    let cursor := Scan.Cursor.ofSource "return"
    let final := (run (ofCursor cursor)).final
    (Scan.tokens cursor.ahead).length = 1 ∧
      Log.failedStatements final.log.toList ≤ 1 ∧
      final.stream.position = 1 + 2 ∧
      final.stream.pulled ≤ 1 + 4 := by
  intro cursor final
  have hLength :
      (Scan.tokens cursor.ahead).length = 1 := by
    decide +kernel
  have hProgram :
      (run (ofCursor cursor)).program = .ok [] :=
    eq_ok_of_toOption (by decide +kernel)
  rcases run_bounded.2.2 cursor [] hProgram with
    ⟨-, -, -, hAttempts, -, -, hPulled⟩
  rw [hLength] at hAttempts hPulled
  rw [List.length_nil, Nat.zero_add] at hAttempts
  exact
    ⟨hLength, hAttempts, by decide +kernel, hPulled⟩

end Parse

end LetLang

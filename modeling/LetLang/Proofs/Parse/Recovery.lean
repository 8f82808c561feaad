import LetLang.Proofs.Parse.Fork
import LetLang.Proofs.Parse.Separation

/-
  Recovery: where a parse goes on after tokens of which no
  statement could be made, when a semicolon and a program
  follow them.

  Up to the semicolon the parse does what it would do if the
  end came instead. What it does there depends on the last
  failed attempt. If that stopped right before the mark, the
  mark is passed after the failure and the program is read
  from its start. If the mark itself was what failed, or is
  still to be attempted, then the first token of the program
  is passed as well and the program is not read.

  Main declarations:
    * `Parse.fork_course`
    * `Parse.recovers_iff`
-/

namespace LetLang

namespace Parse

------------------------------------------------------------
-- At a Mark
------------------------------------------------------------

/- A statement that starts with a mark fails behind it. -/
theorem statement_of_isMark
    {state : State}
    {token : Token}
    (hCurrent : state.stream.current = some token)
    (h : token.kind.isMark = true) :
    ∃ raised after,
      statement state = (.failed raised, after) ∧
        after.stream = state.stream.advance := by
  have hStop : state.stream.IsStop := .of_current hCurrent h
  have hExpression :
      state.expression .lowest =
        (.failed (Diagnostic.root (.noOperand token)),
          ⟨state.stream.advance, state.log⟩) :=
    (trace_of_isMark hCurrent h .lowest).expression_eq
  have hOpening :=
    Opening.bare (hStop.currentIs_eq_false rfl)
      (hStop.currentIs_eq_false rfl)
  exact
    ⟨_, _,
      (StatementTrace.failed hOpening
        hExpression).statement_eq, rfl⟩

theorem Course.final_eq
    {state final : State}
    {result : Except Fault Program}
    (hCourse : Course state result final)
    (hFinished : state.isFinished = true) :
    final = state := by
  have hEq := hCourse.program_eq
  rw [program_of_finished hFinished] at hEq
  exact (congrArg Prod.snd hEq).symm

theorem isFinished_of_rest_nil
    {state : State}
    (h : state.stream.rest = []) :
    state.isFinished = true := by
  apply isFinished_of_closing
  rw [h]
  exact .nil

/- Before the fork only its mark can end a parse. -/
theorem eq_nil_of_isFinished
    {fork : TokenStream.Fork}
    {shared : List Token}
    {state : State}
    {other : TokenStream}
    (hBefore : fork.Before shared state.stream other)
    (hFinished : state.isFinished = true) :
    shared = [] := by
  cases shared with
  | nil => rfl
  | cons token shared =>
      have hMark :=
        hBefore.isMark_eq_false token (List.mem_cons_self ..)
      have hEof : token.kind = .eof := by
        simpa [State.isFinished, hBefore.current_cons.1]
          using hFinished
      rw [hEof] at hMark
      cases hMark

/- If the mark is the end token, only the fork is the end. -/
theorem isFinished_eq_false
    {fork : TokenStream.Fork}
    {shared : List Token}
    {state other : State}
    (hEnd : fork.mark.kind = .eof)
    (hBefore : fork.Before shared state.stream other.stream)
    (hUnfinished : state.isFinished = false) :
    other.isFinished = false := by
  cases shared with
  | nil =>
      simp [State.isFinished, hBefore.current_nil.1, hEnd]
        at hUnfinished
  | cons token shared =>
      simpa [State.isFinished, hBefore.current_cons.1,
        hBefore.current_cons.2] using hUnfinished

------------------------------------------------------------
-- Behind the Fork
------------------------------------------------------------

/-
  Two parses of which the first makes no statement and ends
  at an end token, where the second one has a semicolon. The
  second goes on behind its semicolon, or one place further
  if the first did not stop right behind the end token.
-/
theorem fork_course
    {fork : TokenStream.Fork}
    (hEnd : fork.mark.kind = .eof)
    (hTail : fork.tail = [])
    (hSemicolon : fork.otherMark.kind = .semicolon)
    {state final : State}
    {result : Except Fault Program}
    (hCourse : Course state result final)
    (hResult : result = .ok [])
    {shared : List Token}
    {other : State}
    (hBefore :
      fork.Before shared state.stream other.stream) :
    ∃ later : State,
      program other = program later ∧
        later.stream.rest =
          if final.stream.position = fork.place + 1 then
            fork.otherTail
          else
            fork.otherTail.tail := by
  induction hCourse generalizing shared other with
  | @finished state hFinished =>
      rcases eq_nil_of_isFinished hBefore hFinished with rfl
      rcases statement_of_isMark hBefore.current_nil.2
          fork.otherIsMark with
        ⟨raised, after, hAttempt, hAfter⟩
      have hUnfinished : other.isFinished = false := by
        simp [State.isFinished, hBefore.current_nil.2,
          hSemicolon]
      refine
        ⟨(after.record raised).advance,
          program_of_failed hUnfinished hAttempt, ?_⟩
      have hPosition := hBefore.position_eq
      rw [List.length_nil] at hPosition
      rw [if_neg (by omega), ← hBefore.advance_nil.other_eq,
        ← hAfter]
      rfl
  | done hUnfinished hAttempt hLater ih => cases hResult
  | doneFatal hUnfinished hAttempt hLater ih =>
      cases hResult
  | @failed state after final raised result hUnfinished
      hAttempt hLater ih =>
      rcases fork_statement hBefore hAttempt with
        ⟨otherRaised, otherAfter, hOther, hTogether⟩
      have hOtherUnfinished : other.isFinished = false :=
        isFinished_eq_false hEnd hBefore hUnfinished
      have hProgram :=
        program_of_failed hOtherUnfinished hOther
      rcases hTogether with ⟨left, hLeft⟩ | hBehind
      · cases left with
        | nil =>
            -- The mark itself is what is passed next.
            have hNext :
                fork.Behind
                  (after.record raised).advance.stream
                  (otherAfter.record
                    otherRaised).advance.stream :=
              hLeft.advance_nil
            have hFinal := hLater.final_eq
              (isFinished_of_rest_nil
                (hNext.rest_eq.trans hTail))
            refine ⟨_, hProgram, ?_⟩
            rw [hFinal, if_pos hNext.position_eq]
            exact hNext.other_eq
        | cons token left =>
            have hNext :
                fork.Before left
                  (after.record raised).advance.stream
                  (otherAfter.record
                    otherRaised).advance.stream :=
              hLeft.advance
            rcases ih hResult hNext with
              ⟨later, hLaterProgram, hRest⟩
            exact
              ⟨later, hProgram.trans hLaterProgram, hRest⟩
      · -- The mark has failed, and one more place is passed.
        have hPosition :
            (after.record raised).advance.stream.position =
              fork.place + 2 := by
          exact congrArg (· + 1) hBehind.position_eq
        have hRest :
            (after.record raised).advance.stream.rest =
              [] := by
          simp [State.record, State.advance,
            TokenStream.advance, hBehind.rest_eq, hTail]
        have hFinal :=
          hLater.final_eq (isFinished_of_rest_nil hRest)
        refine ⟨_, hProgram, ?_⟩
        rw [hFinal, hPosition, if_neg (by omega),
          ← hBehind.other_eq]
        rfl
  | fatal hUnfinished hAttempt => cases hResult

------------------------------------------------------------
-- Separated Programs
------------------------------------------------------------

/-
  A program cannot be read from its tokens without the first
  one: they are too few for its statements.
-/
theorem eq_nil_of_tail
    {tokens : List Token}
    {program before : Program}
    {passed : List (List Token)}
    {stop : Token}
    {later final : State}
    (hReading : Reading tokens program passed)
    (hSeparated : Separated program tokens)
    (hStop : stop.kind = .eof)
    (hRest :
      later.stream.rest =
        (tokens.map some ++ [some stop]).tail)
    (hCourse :
      Course later (.ok (before ++ program)) final) :
    program = [] := by
  have hLe := hCourse.size_le rfl
  have hWeight :=
    hSeparated.weight_eq hReading.isCanonical
  rw [Program.size_append, hRest] at hLe
  cases tokens with
  | nil =>
      apply Program.eq_nil_of_size_eq_zero
      rw [← hWeight]
      rfl
  | cons token tokens =>
      have hFirst : token.kind.isMark = false :=
        hReading.isMark_head? token rfl
      have hOne : TokenStream.weight [some token] = 1 := by
        simp [TokenStream.weight, hFirst]
      have hNone : TokenStream.weight [some stop] = 0 := by
        simp [TokenStream.weight, Token.Kind.isMark, hStop]
      rw [List.map_cons, ← List.singleton_append,
        TokenStream.weight_append, hOne] at hWeight
      rw [List.map_cons, List.cons_append, List.tail_cons,
        TokenStream.weight_append, hNone] at hLe
      omega

/-
  Behind a semicolon a program is read exactly if its first
  token has not been passed, or if it has none.
-/
theorem exists_append_iff
    {tokens : List Token}
    {program : Program}
    {passed : List (List Token)}
    {stop : Token}
    {later : State}
    {reached : Prop}
    [Decidable reached]
    (hReading : Reading tokens program passed)
    (hSeparated : Separated program tokens)
    (hStop : stop.kind = .eof)
    (hRest :
      later.stream.rest =
        if reached then
          tokens.map some ++ [some stop]
        else
          (tokens.map some ++ [some stop]).tail) :
    (∃ before,
        (Parse.program later).1 = .ok (before ++ program)) ↔
      program = [] ∨ reached := by
  have hTail : TokenStream.Closing [some stop] := .eof hStop
  by_cases hReached : reached
  · rw [if_pos hReached] at hRest
    rcases hReading.course hTail hRest with
      ⟨final, hCourse, -⟩
    constructor
    · intro _
      exact Or.inr hReached
    · intro _
      refine ⟨[], ?_⟩
      rw [hCourse.program_eq]
      rfl
  · rw [if_neg hReached] at hRest
    constructor
    · rintro ⟨before, hProgram⟩
      have hCourse := course_program later
      rw [hProgram] at hCourse
      exact
        Or.inl
          (eq_nil_of_tail hReading hSeparated hStop hRest
            hCourse)
    · rintro (rfl | hIs)
      · cases hSeparated
        refine ⟨[], ?_⟩
        rw [program_of_finished
          (isFinished_of_rest_nil hRest)]
        rfl
      · exact absurd hIs hReached

/-
  The exact condition under which a program is read behind
  tokens of which no statement could be made: it is empty,
  or the parse of those tokens alone stops right behind the
  end token.
-/
theorem recovers_iff
    (broken : List Token)
    (mark stop : Token)
    (text : String)
    (program : Program)
    (hBroken : ∀ token ∈ broken, token.kind.isMark = false)
    (hMark : mark.kind = .semicolon)
    (hStop : stop.kind = .eof)
    (hNone :
      (run (TokenStream.ofTokens
        (broken ++ [stop]))).program = .ok [])
    (hProgram : (source text).program = .ok program)
    (hLog : (source text).final.log = #[])
    (hSeparated :
      Separated program (Scan.tokens text.toList)) :
    (∃ before,
        (run (TokenStream.ofTokens
          (broken ++ mark ::
            (Scan.tokens text.toList ++ [stop])))).program =
          .ok (before ++ program)) ↔
      program = [] ∨
        (run (TokenStream.ofTokens
            (broken ++ [stop]))).final.stream.position =
          broken.length + 1 := by
  rcases source_clean_iff.mp ⟨hProgram, hLog⟩ with
    ⟨passed, hReading⟩
  generalize Scan.tokens text.toList = tokens
    at hSeparated hReading ⊢
  let state :=
    State.ofStream (TokenStream.ofTokens (broken ++ [stop]))
  let other :=
    State.ofStream
      (TokenStream.ofTokens
        (broken ++ mark :: (tokens ++ [stop])))
  let fork : TokenStream.Fork :=
    ⟨broken.length, stop, [], mark,
      tokens.map some ++ [some stop],
      by simp [Token.Kind.isMark, hStop],
      by simp [Token.Kind.isMark, hMark]⟩
  have hBefore :
      fork.Before broken state.stream other.stream := by
    refine ⟨?_, ?_, Nat.zero_add _, hBroken⟩
    · simp [fork, state, State.ofStream,
        TokenStream.ofTokens, TokenStream.ofPlaces]
    · simp [fork, other, State.ofStream,
        TokenStream.ofTokens, TokenStream.ofPlaces]
  rcases fork_course hStop rfl hMark (course_program state)
      hNone hBefore with ⟨later, hSame, hRest⟩
  have hRun :
      (run (TokenStream.ofTokens
          (broken ++ mark :: (tokens ++ [stop])))).program =
        (Parse.program later).1 :=
    congrArg Prod.fst hSame
  rw [hRun]
  exact exists_append_iff hReading hSeparated hStop hRest

/- A binding and its semicolon are separated. -/
theorem separated_binding :
    Separated
      [.letStmt ⟨.letWord, "let"⟩ ⟨.ident, "y"⟩
        (.int ⟨.int, "2"⟩ 2)]
      (Scan.tokens "let y = 2;".toList) := by
  have hTokens :
      Scan.tokens "let y = 2;".toList =
        [⟨.letWord, "let"⟩, ⟨.ident, "y"⟩, ⟨.assign, "="⟩,
          ⟨.int, "2"⟩, Token.semicolon] := by
    decide +kernel
  have hSign : Token.assignSign.kind = .assign := rfl
  have hMark : IsSeparator [Token.semicolon] :=
    Or.inr ⟨Token.semicolon, rfl, rfl⟩
  rw [hTokens]
  exact .cons hSign hMark .nil

/- A binding is read behind an asterisk and a semicolon. -/
theorem recovers_behind_asterisk :
    ∃ before,
      (run (TokenStream.ofTokens
        ([⟨.asterisk, "*"⟩] ++ Token.semicolon ::
          (Scan.tokens "let y = 2;".toList
            ++ [Token.eof])))).program =
        .ok (before ++
          [.letStmt ⟨.letWord, "let"⟩ ⟨.ident, "y"⟩
            (.int ⟨.int, "2"⟩ 2)]) := by
  have hNone :
      (run (TokenStream.ofTokens
        ([⟨.asterisk, "*"⟩] ++ [Token.eof]))).program =
        .ok [] :=
    eq_ok_of_toOption (by decide +kernel)
  have hProgram :
      (source "let y = 2;").program =
        .ok
          [.letStmt ⟨.letWord, "let"⟩ ⟨.ident, "y"⟩
            (.int ⟨.int, "2"⟩ 2)] :=
    eq_ok_of_toOption (by decide +kernel)
  have hLog : (source "let y = 2;").final.log = #[] := by
    decide +kernel
  apply
    (recovers_iff [⟨.asterisk, "*"⟩] Token.semicolon
      Token.eof "let y = 2;" _ (by decide) rfl rfl hNone
      hProgram hLog separated_binding).mpr
  exact Or.inr (by decide +kernel)

/-
  Behind a binding without a value and a semicolon it is
  not: the semicolon is taken for the value, and the first
  token of the next binding is passed.
-/
theorem not_recovers_behind_sign :
    (run (TokenStream.ofTokens
        ([⟨.letWord, "let"⟩, ⟨.ident, "x"⟩,
          ⟨.assign, "="⟩] ++ [Token.eof]))).program =
        .ok [] ∧
      (run (TokenStream.ofTokens
        ([⟨.letWord, "let"⟩, ⟨.ident, "x"⟩,
          ⟨.assign, "="⟩]
            ++ [Token.eof]))).final.log.size = 2 ∧
      (source "let y = 2;").program =
        .ok
          [.letStmt ⟨.letWord, "let"⟩ ⟨.ident, "y"⟩
            (.int ⟨.int, "2"⟩ 2)] ∧
      (source "let y = 2;").final.log = #[] ∧
      Separated
        [.letStmt ⟨.letWord, "let"⟩ ⟨.ident, "y"⟩
          (.int ⟨.int, "2"⟩ 2)]
        (Scan.tokens "let y = 2;".toList) ∧
      ¬ ∃ before,
        (run (TokenStream.ofTokens
          ([⟨.letWord, "let"⟩, ⟨.ident, "x"⟩,
            ⟨.assign, "="⟩] ++ Token.semicolon ::
            (Scan.tokens "let y = 2;".toList
              ++ [Token.eof])))).program =
          .ok (before ++
            [.letStmt ⟨.letWord, "let"⟩ ⟨.ident, "y"⟩
              (.int ⟨.int, "2"⟩ 2)]) := by
  refine
    ⟨eq_ok_of_toOption (by decide +kernel),
      by decide +kernel,
      eq_ok_of_toOption (by decide +kernel),
      by decide +kernel, separated_binding, ?_⟩
  rintro ⟨before, hProgram⟩
  have hRun :
      (run (TokenStream.ofTokens
        ([⟨.letWord, "let"⟩, ⟨.ident, "x"⟩,
          ⟨.assign, "="⟩] ++ Token.semicolon ::
          (Scan.tokens "let y = 2;".toList
            ++ [Token.eof])))).program =
        .ok
          [.exprStmt ⟨.ident, "y"⟩ (.ident ⟨.ident, "y"⟩),
            .exprStmt ⟨.int, "2"⟩
              (.int ⟨.int, "2"⟩ 2)] :=
    eq_ok_of_toOption (by decide +kernel)
  rw [hRun] at hProgram
  have hLast :=
    congrArg List.getLast? (Except.ok.inj hProgram)
  rw [List.getLast?_concat] at hLast
  exact absurd hLast (by decide)

end Parse

end LetLang

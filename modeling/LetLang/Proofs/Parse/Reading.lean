import LetLang.Proofs.Parse.Acceptance
import LetLang.Proofs.Parse.Course
import LetLang.Proofs.Scan.Spelling

/-
  Readings: how a program is found in a list of tokens when
  nothing is recorded.

  A reading splits the tokens into the statements of the
  program and what is passed behind each of them. Behind a
  statement the parser passes one token, whatever it is, and
  behind a bare expression also a semicolon that comes after
  that token. So a clean parse finds exactly the readings.

  Key definitions include:
    * `Stmt.skips`
    * `Parse.Reading`
    * `TokenStream.Closing`

  Main declarations:
    * `Parse.Reading.course`
    * `Parse.Course.reading`
    * `Parse.Reading.cons_semicolon`
    * `Parse.source_clean_iff`
-/

------------------------------------------------------------
-- The Last Places of a Stream
------------------------------------------------------------

namespace LetLang

/-
  Places that hold no token to parse: none, or one with an
  end token.
-/
inductive TokenStream.Closing :
    List (Option Token) → Prop where
  | nil : Closing []
  | eof
      {token : Token}
      (hKind : token.kind = .eof) :
      Closing [some token]

namespace TokenStream

theorem beyond_ne_semicolon
    (stream : TokenStream) :
    stream.beyond.any
      (fun token => token.kind == .semicolon) = false := by
  unfold beyond
  split <;> rfl

/-
  The place behind the current one is a semicolon exactly if
  it is one among the tokens.
-/
theorem peekIs_semicolon_eq
    {stream : TokenStream}
    {tokens : List Token}
    {tail : List (Option Token)}
    (hRest : stream.rest = tokens.map some ++ tail)
    (hTail : Closing tail) :
    stream.peekIs .semicolon =
      tokens[1]?.any
        (fun token => token.kind == .semicolon) := by
  unfold peekIs peek
  rw [hRest]
  cases hTail with
  | nil =>
      rcases tokens with _ | ⟨first, _ | ⟨second, rest⟩⟩
      · exact beyond_ne_semicolon stream
      · exact beyond_ne_semicolon stream
      · rfl
  | eof hKind =>
      rcases tokens with _ | ⟨first, _ | ⟨second, rest⟩⟩
      · exact beyond_ne_semicolon stream
      · simp [hKind]
      · rfl

/-
  What stands before the last places and holds no end token
  stands among the tokens.
-/
theorem exists_append_of_closing
    {tokens own : List Token}
    {tail rest : List (Option Token)}
    (hTail : Closing tail)
    (hOwn : ∀ token ∈ own, token.kind ≠ .eof)
    (h : tokens.map some ++ tail = own.map some ++ rest) :
    ∃ later,
      tokens = own ++ later ∧
        rest = later.map some ++ tail := by
  induction own generalizing tokens with
  | nil => exact ⟨tokens, rfl, h.symm⟩
  | cons token own ih =>
      cases tokens with
      | nil =>
          cases hTail with
          | nil => simp at h
          | eof hKind =>
              have hHead := (List.cons.inj h).1
              cases hHead
              exact (hOwn _ (List.mem_cons_self ..) hKind).elim
      | cons first tokens =>
          simp only [List.map_cons, List.cons_append,
            List.cons.injEq, Option.some.injEq] at h
          rcases h with ⟨rfl, h⟩
          rcases ih (fun token hMem =>
              hOwn token (List.mem_cons_of_mem _ hMem)) h
            with ⟨later, rfl, hRest⟩
          exact ⟨later, rfl, hRest⟩

end TokenStream

------------------------------------------------------------
-- Behind a Statement
------------------------------------------------------------

namespace Stmt

/-
  The number of tokens passed behind a statement, given the
  tokens that follow it.
-/
def skips
    (rest : List Token) : Stmt → Nat
  | .exprStmt _ _ =>
      if rest[1]?.any
          (fun token => token.kind == .semicolon) then
        2
      else
        1
  | _ => 1

/- At least one token is passed behind a statement. -/
theorem skips_pos
    (stmt : Stmt)
    (rest : List Token) :
    0 < stmt.skips rest := by
  cases stmt with
  | letStmt token name value => exact Nat.one_pos
  | returnStmt token value => exact Nat.one_pos
  | exprStmt token expr =>
      simp only [skips]
      split
      · exact Nat.two_pos
      · exact Nat.one_pos

/- One token is passed unless a mark is the second one. -/
theorem skips_cons
    (stmt : Stmt)
    (token : Token)
    {rest : List Token}
    (h : ∀ next ∈ rest.head?, next.kind.isMark = false) :
    stmt.skips (token :: rest) = 1 := by
  cases stmt with
  | letStmt opening name value => rfl
  | returnStmt opening value => rfl
  | exprStmt opening expr =>
      cases rest with
      | nil => rfl
      | cons next rest =>
          have hNext : next.kind.isMark = false := h next rfl
          have hNot : (next.kind == .semicolon) = false := by
            unfold Token.Kind.isMark at hNext
            exact (Bool.or_eq_false_iff.mp hNext).1
          simp [skips, hNot]

/- Behind a statement so many tokens are passed. -/
theorem rest_leave_advance
    (stmt : Stmt)
    (state : Parse.State)
    {tokens : List Token}
    {tail : List (Option Token)}
    (hRest :
      state.stream.rest = tokens.map some ++ tail)
    (hTail : TokenStream.Closing tail) :
    ∃ last,
      TokenStream.Closing last ∧
        (stmt.leave state).advance.stream.rest =
          (tokens.drop (stmt.skips tokens)).map some
            ++ last := by
  have hOne :
      ∃ last,
        TokenStream.Closing last ∧
          state.advance.stream.rest =
            (tokens.drop 1).map some ++ last := by
    simp only [Parse.State.advance, TokenStream.advance,
      hRest]
    cases tokens with
    | nil =>
        cases hTail with
        | nil => exact ⟨[], .nil, rfl⟩
        | eof hKind => exact ⟨[], .nil, rfl⟩
    | cons token tokens => exact ⟨tail, hTail, rfl⟩
  cases stmt with
  | letStmt token name value => exact hOne
  | returnStmt token value => exact hOne
  | exprStmt token expr =>
      simp only [leave, Parse.passBeforeSemicolon, skips]
      rw [TokenStream.peekIs_semicolon_eq hRest hTail]
      split
      · rename_i hSemicolon
        rcases tokens with _ | ⟨first, _ | ⟨second, rest⟩⟩
        · cases hSemicolon
        · cases hSemicolon
        · refine ⟨tail, hTail, ?_⟩
          simp [Parse.State.advance, TokenStream.advance,
            hRest]
      · exact hOne

end Stmt

------------------------------------------------------------
-- Readings
------------------------------------------------------------

namespace Parse

/-
  Tokens are the statements of a program, each with the
  tokens that are passed behind it.
-/
inductive Reading :
    List Token → Program → List (List Token) → Prop where
  | nil : Reading [] [] []
  | cons
      {stmt : Stmt}
      {sign : Token}
      {rest : List Token}
      {program : Program}
      {passed : List (List Token)}
      (hCanonical : stmt.IsCanonical)
      (hSign : sign.kind = .assign)
      (hStop :
        ∀ token ∈ rest.head?, token.kind.level? = none)
      (hRest :
        Reading (rest.drop (stmt.skips rest))
          program passed) :
      Reading (stmt.yieldWith sign ++ rest)
        (stmt :: program)
        (rest.take (stmt.skips rest) :: passed)

/- Before the last places nothing is attempted any more. -/
theorem isFinished_of_closing
    {state : State}
    (hTail : TokenStream.Closing state.stream.rest) :
    state.isFinished = true := by
  unfold State.isFinished TokenStream.current
  generalize state.stream.rest = tail at hTail
  cases hTail with
  | nil =>
      unfold TokenStream.beyond
      dsimp only
      split <;> rfl
  | eof hKind => simp [hKind]

theorem bindsAbove_lowest_eq_false_iff
    {stream : TokenStream}
    {tokens : List Token}
    {tail : List (Option Token)}
    (hRest : stream.rest = tokens.map some ++ tail)
    (hTail : TokenStream.Closing tail) :
    stream.bindsAbove .lowest = false ↔
      ∀ token ∈ tokens.head?, token.kind.level? = none := by
  have hKind (kind : Token.Kind) :
      kind.bindsAbove .lowest = false ↔
        kind.level? = none := by
    cases kind <;> decide
  cases tokens with
  | nil =>
      have hFinished :
          (State.ofStream stream).isFinished = true := by
        apply isFinished_of_closing
        simp only [State.ofStream, hRest]
        exact hTail
      cases hCurrent : stream.current with
      | none => simp [TokenStream.bindsAbove, hCurrent]
      | some token =>
          have hEof : token.kind = .eof := by
            simpa [State.isFinished, State.ofStream,
              hCurrent] using hFinished
          rw [TokenStream.bindsAbove_of_current hCurrent,
            hEof]
          simp [Token.Kind.bindsAbove, Token.Kind.level?]
  | cons token tokens =>
      have hCurrent : stream.current = some token := by
        simp [TokenStream.current, hRest]
      rw [TokenStream.bindsAbove_of_current hCurrent,
        hKind]
      simp

/- A statement's first token is something to attempt. -/
theorem isFinished_of_reads
    {state : State}
    {stmt : Stmt}
    {sign : Token}
    {middle : TokenStream}
    (hCanonical : stmt.IsCanonical)
    (hSign : sign.kind = .assign)
    (hReads :
      state.stream.Reads (stmt.yieldWith sign) middle) :
    state.isFinished = false := by
  cases hYield : stmt.yieldWith sign with
  | nil => exact (stmt.yieldWith_ne_nil sign hYield).elim
  | cons token tokens =>
      have hMark : token.kind.isMark = false := by
        apply hCanonical.isMark_eq_false hSign
        rw [hYield]
        exact List.mem_cons_self ..
      rw [hYield] at hReads
      unfold State.isFinished
      rw [hReads.current_eq]
      unfold Token.Kind.isMark at hMark
      simp only [Bool.or_eq_false_iff] at hMark
      exact hMark.2

/-
  A reading is parsed to its program, and nothing is
  recorded.
-/
theorem Reading.course
    {tokens : List Token}
    {program : Program}
    {passed : List (List Token)}
    (hReading : Reading tokens program passed)
    {state : State}
    {tail : List (Option Token)}
    (hTail : TokenStream.Closing tail)
    (hRest :
      state.stream.rest = tokens.map some ++ tail) :
    ∃ final,
      Course state (.ok program) final ∧
        final.log = state.log := by
  induction hReading generalizing state tail with
  | nil =>
      refine ⟨state, .finished ?_, rfl⟩
      apply isFinished_of_closing
      rw [hRest]
      exact hTail
  | @cons stmt sign rest program passed hCanonical hSign
      hStop hLater ih =>
      let middle : TokenStream :=
        ⟨rest.map some ++ tail, state.stream.endless,
          state.stream.position
            + (stmt.yieldWith sign).length⟩
      have hReads :
          state.stream.Reads (stmt.yieldWith sign)
            middle := by
        refine ⟨?_, rfl, rfl⟩
        rw [hRest, List.map_append, List.append_assoc]
      have hMiddle :
          middle.rest = rest.map some ++ tail := rfl
      have hNext : middle.bindsAbove .lowest = false :=
        (bindsAbove_lowest_eq_false_iff hMiddle hTail).mpr
          hStop
      have hAttempt :=
        statement_of_reads hCanonical hSign hReads hNext
      rcases stmt.rest_leave_advance
          ⟨middle, state.log⟩ hMiddle hTail with
        ⟨last, hLast, hLastRest⟩
      rcases ih hLast hLastRest with
        ⟨final, hCourse, hLog⟩
      refine
        ⟨final,
          .done
            (isFinished_of_reads hCanonical hSign hReads)
            hAttempt hCourse, ?_⟩
      rw [hLog]
      exact stmt.log_leave _

/-
  A parse that records nothing is a reading of the tokens
  before the end.
-/
theorem Course.reading
    {state final : State}
    {result : Except Fault Program}
    (hCourse : Course state result final)
    {program : Program}
    (hResult : result = .ok program)
    (hLog : final.log = state.log)
    {tokens : List Token}
    {tail : List (Option Token)}
    (hTail : TokenStream.Closing tail)
    (hRest :
      state.stream.rest = tokens.map some ++ tail)
    (hTokens : ∀ token ∈ tokens, token.kind ≠ .eof) :
    ∃ passed, Reading tokens program passed := by
  induction hCourse generalizing program tokens tail with
  | @finished state hFinished =>
      cases hResult
      cases tokens with
      | nil => exact ⟨[], .nil⟩
      | cons token tokens =>
          have hKind :=
            hTokens token (List.mem_cons_self ..)
          simp [State.isFinished, TokenStream.current,
            hRest, hKind] at hFinished
  | @done state after final stmt later hUnfinished
      hAttempt hLater ih =>
      cases hResult
      rcases reads_of_statement hAttempt with
        ⟨hCanonical, sign, middle, hSign, hReads, hStop,
          rfl⟩
      have hOwn :
          ∀ token ∈ stmt.yieldWith sign,
            token.kind ≠ .eof := by
        intro token hMem hEof
        have hMark :=
          hCanonical.isMark_eq_false hSign hMem
        rw [hEof] at hMark
        cases hMark
      have hSplit := hReads.rest_eq
      rw [hRest] at hSplit
      rcases TokenStream.exists_append_of_closing hTail
          hOwn hSplit with ⟨rest, rfl, hMiddle⟩
      rcases stmt.rest_leave_advance
          ⟨middle, state.log⟩ hMiddle hTail with
        ⟨last, hLast, hLastRest⟩
      have hLaterLog :
          final.log =
            (stmt.leave
              ⟨middle, state.log⟩).advance.log := by
        rw [hLog]
        exact (stmt.log_leave ⟨middle, state.log⟩).symm
      have hLaterTokens :
          ∀ token ∈ rest.drop (stmt.skips rest),
            token.kind ≠ .eof := by
        intro token hMem
        exact hTokens token
          (List.mem_append_right _
            (List.mem_of_mem_drop hMem))
      rcases ih rfl hLaterLog hLast hLastRest
          hLaterTokens with ⟨passed, hReading⟩
      have hNext :=
        (bindsAbove_lowest_eq_false_iff hMiddle hTail).mp
          hStop
      exact ⟨_, .cons hCanonical hSign hNext hReading⟩
  | doneFatal hUnfinished hAttempt hLater ih =>
      cases hResult
  | failed hUnfinished hAttempt hLater ih =>
      have hGrown := size_lt_of_failed hAttempt hLater
      rw [hLog] at hGrown
      exact (Nat.lt_irrefl _ hGrown).elim
  | fatal hUnfinished hAttempt => cases hResult

------------------------------------------------------------
-- Shapes of Readings
------------------------------------------------------------

/- The tokens of a reading start with no mark. -/
theorem Reading.isMark_head?
    {tokens : List Token}
    {program : Program}
    {passed : List (List Token)}
    (hReading : Reading tokens program passed) :
    ∀ token ∈ tokens.head?, token.kind.isMark = false := by
  cases hReading with
  | nil =>
      intro token hHead
      cases hHead
  | @cons stmt sign rest program passed hCanonical hSign
      hStop hRest =>
      intro token hHead
      exact hCanonical.isMark_head? hSign hHead

/- All statements of a reading are canonical. -/
theorem Reading.isCanonical
    {tokens : List Token}
    {program : Program}
    {passed : List (List Token)}
    (hReading : Reading tokens program passed) :
    ∀ stmt ∈ program, stmt.IsCanonical := by
  induction hReading with
  | nil =>
      intro stmt hMem
      cases hMem
  | cons hCanonical hSign hStop hRest ih =>
      intro stmt hMem
      rcases List.mem_cons.mp hMem with rfl | hMem
      · exact hCanonical
      · exact ih stmt hMem

/- Behind the last token of a source nothing is passed. -/
theorem Reading.last
    {stmt : Stmt}
    {sign : Token}
    (hCanonical : stmt.IsCanonical)
    (hSign : sign.kind = .assign) :
    Reading (stmt.yieldWith sign) [stmt] [[]] := by
  have hStop :
      ∀ token ∈ ([] : List Token).head?,
        token.kind.level? = none := by
    intro token hHead
    cases hHead
  have hRest :
      Reading (([] : List Token).drop (stmt.skips []))
        [] [] := by
    rw [List.drop_nil]
    exact .nil
  have hCons := Reading.cons hCanonical hSign hStop hRest
  rw [List.append_nil, List.take_nil] at hCons
  exact hCons

/- A semicolon behind a statement is what is passed there. -/
theorem Reading.cons_semicolon
    {stmt : Stmt}
    {sign mark : Token}
    {tokens : List Token}
    {program : Program}
    {passed : List (List Token)}
    (hCanonical : stmt.IsCanonical)
    (hSign : sign.kind = .assign)
    (hMark : mark.kind = .semicolon)
    (hReading : Reading tokens program passed) :
    Reading (stmt.yieldWith sign ++ mark :: tokens)
      (stmt :: program) ([mark] :: passed) := by
  have hSkips : stmt.skips (mark :: tokens) = 1 :=
    stmt.skips_cons mark hReading.isMark_head?
  have hStop :
      ∀ token ∈ (mark :: tokens).head?,
        token.kind.level? = none := by
    intro token hHead
    cases hHead
    rw [hMark]
    rfl
  have hRest :
      Reading
        ((mark :: tokens).drop (stmt.skips (mark :: tokens)))
        program passed := by
    rw [hSkips]
    exact hReading
  have hCons := Reading.cons hCanonical hSign hStop hRest
  rw [hSkips] at hCons
  exact hCons

------------------------------------------------------------
-- Clean Sources
------------------------------------------------------------

/-
  A source is parsed without an error exactly to the
  programs that its tokens can be read as.
-/
theorem source_clean_iff
    {text : String}
    {program : Program} :
    ((source text).program = .ok program ∧
        (source text).final.log = #[]) ↔
      ∃ passed,
        Reading (Scan.tokens text.toList)
          program passed := by
  let state := State.ofStream (TokenStream.ofSource text)
  have hRest :
      state.stream.rest =
        (Scan.tokens text.toList).map some ++ [] :=
    (List.append_nil _).symm
  constructor
  · rintro ⟨hProgram, hLog⟩
    apply (course_program state).reading hProgram hLog .nil
      hRest
    intro token hMem
    exact ((Scan.spelling_tokens _).isLexical hMem).kind_ne_eof
  · rintro ⟨passed, hReading⟩
    rcases hReading.course .nil hRest with
      ⟨final, hCourse, hLog⟩
    have hRun := course_iff.mp hCourse
    constructor
    · exact congrArg Prod.fst hRun
    · exact (congrArg (fun run => run.2.log) hRun).trans hLog

end Parse

end LetLang

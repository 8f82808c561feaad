import LetLang.Proofs.Parse.EndToken
import LetLang.Proofs.Scan.Spelling

/-
  Sources of tokens: lists that run dry, lists that close
  with an end token, and texts that are scanned on demand
  and end in end tokens without end.

  The same tokens are parsed alike from any of them. What
  differs is what is visible behind the last token, and so
  what an error says that is found there: nothing, or an end
  token. A scanned source never lacks a token, so a parse of
  it never says that one is missing, and stops at an end
  token.

  Key definitions include:
    * `ParseError.endedBy`

  Main declarations:
    * `Scan.Cursor.get?_ofCursor`
    * `Parse.run_of_reads`
    * `Parse.run_sources`
-/

------------------------------------------------------------
-- Tokens Read by a Cursor
------------------------------------------------------------

namespace LetLang

namespace Scan

namespace Cursor

/-
  The places of the stream of a cursor are what it reads,
  one token after the other.
-/
theorem get?_ofCursor
    (cursor : Cursor)
    (i : Nat) :
    (TokenStream.ofCursor cursor).get? i =
      some (cursor.skip i).next.1 := by
  rw [(cursor.skip i).next_eq.1, tokens_skip,
    List.headD_eq_head?_getD, List.head?_drop]
  unfold TokenStream.get? TokenStream.ofCursor
  rw [List.getElem?_map]
  cases (tokens cursor.ahead)[i]? with
  | none => rfl
  | some token => rfl

end Cursor

end Scan

------------------------------------------------------------
-- Errors Where the Tokens End
------------------------------------------------------------

/-
  The error where an end token stands in the place of none.
  All other errors say the same.
-/
def ParseError.endedBy
    (stop : Token) : ParseError → ParseError
  | .missingToken => .noOperand stop
  | .unexpectedToken expected none =>
      .unexpectedToken expected (some stop)
  | error => error

/- With an end token in place, no error says it is missing. -/
theorem ParseError.endedBy_ne
    (stop : Token)
    (error : ParseError) :
    error.endedBy stop ≠ .missingToken ∧
      ∀ expected,
        error.endedBy stop ≠
          .unexpectedToken expected none := by
  rcases error with
    _ | ⟨expected, _ | found⟩ | token | form | form | texts <;>
    exact ⟨nofun, fun expected => nofun⟩

/- This is how errors at a dry end and an end token differ. -/
theorem TokenStream.translates_endedBy
    {dry stop : TokenStream}
    {token : Token}
    (hDry : dry.current = none)
    (hCurrent : stop.current = some token) :
    Translates dry stop (ParseError.endedBy token) := by
  constructor
  · simp only [TokenStream.obstacle, hDry, hCurrent]
    rfl
  · intro expected
    rw [hDry, hCurrent]
    rfl
  · exact fun token => rfl
  · exact fun expected token => rfl
  · exact fun form => rfl
  · exact fun form => rfl

------------------------------------------------------------
-- Streams of the Same Tokens
------------------------------------------------------------

namespace TokenStream

theorem isEnd_dry
    (position : Nat) :
    IsEnd ⟨[], false, position⟩ := by
  intro i token hToken
  cases hToken

theorem isEnd_endless
    (position : Nat) :
    IsEnd ⟨[], true, position⟩ := by
  intro i token hToken
  cases hToken
  rfl

theorem reads_ofTokens
    (tokens later : List Token) :
    (ofTokens (tokens ++ later)).Reads tokens
      ⟨later.map some, false, tokens.length⟩ :=
  ⟨List.map_append, rfl, (Nat.zero_add _).symm⟩

theorem reads_ofCursor
    (cursor : Scan.Cursor) :
    (ofCursor cursor).Reads (Scan.tokens cursor.ahead)
      ⟨[], true, (Scan.tokens cursor.ahead).length⟩ :=
  ⟨(List.append_nil _).symm, rfl, (Nat.zero_add _).symm⟩

end TokenStream

namespace Parse

open TokenStream

/-
  What a parse comes to if an end token closes the tokens,
  is known from the parse of the tokens alone. How many
  places were passed before does not matter, nor do end
  tokens behind the first.
-/
theorem run_of_reads
    {tokens : List Token}
    {stream stop : TokenStream}
    {token : Token}
    (hTokens : ∀ token ∈ tokens, token.kind ≠ .eof)
    (hReads : stream.Reads tokens stop)
    (hEnd : stop.IsEnd)
    (hCurrent : stop.current = some token) :
    (run stream).outcome =
      ((run (ofTokens tokens)).program,
        (run (ofTokens tokens)).final.log.translate
          (ParseError.endedBy token)) := by
  have hDry := reads_ofTokens tokens []
  rw [List.append_nil] at hDry
  have hEnds :
      EndsAlike (ParseError.endedBy token)
        ⟨[], false, tokens.length⟩ stop := by
    refine
      ⟨isEnd_dry _, ?_, translates_endedBy rfl hCurrent⟩
    exact fun token => hEnd.kind_eq
  have hCrossing :=
    (course_program (State.ofStream (ofTokens tokens))).crossing
      hEnds (.of_parallel ⟨hDry, hReads⟩ hTokens)
  rcases hCrossing.exists_final hEnd with
    ⟨final, hRun, hLog⟩
  unfold Run.outcome run
  rw [hRun]
  exact Prod.ext rfl hLog

/- A parse that ends with a program is finished. -/
theorem Course.isFinished
    {state final : State}
    {result : Except Fault Program}
    (hCourse : Course state result final)
    {program : Program}
    (hResult : result = .ok program) :
    final.isFinished = true := by
  induction hCourse generalizing program with
  | finished hFinished => exact hFinished
  | done hUnfinished hAttempt hLater ih => exact ih rfl
  | doneFatal hUnfinished hAttempt hLater ih => cases hResult
  | failed hUnfinished hAttempt hLater ih => exact ih hResult
  | fatal hUnfinished hAttempt => cases hResult

------------------------------------------------------------
-- Scanned Sources
------------------------------------------------------------

/- A parse of what is ahead of a cursor. -/
theorem run_ofCursor
    (cursor : Scan.Cursor) :
    (run (ofCursor cursor)).outcome =
      ((run (ofTokens (Scan.tokens cursor.ahead))).program,
        (run (ofTokens
          (Scan.tokens cursor.ahead))).final.log.translate
            (ParseError.endedBy Token.eof)) :=
  run_of_reads
    (fun _ hMem => Token.kind_ne_eof_of_mem_tokens hMem)
    (reads_ofCursor cursor) (isEnd_endless _) rfl

/- A list that an end token closes is parsed like the rest. -/
theorem run_ofTokens_concat
    {tokens : List Token}
    {stop : Token}
    (hTokens : ∀ token ∈ tokens, token.kind ≠ .eof)
    (hStop : stop.kind = .eof) :
    (run (ofTokens (tokens ++ [stop]))).outcome =
      ((run (ofTokens tokens)).program,
        (run (ofTokens tokens)).final.log.translate
          (ParseError.endedBy stop)) :=
  run_of_reads hTokens (reads_ofTokens tokens [stop])
    (isEnd_singleton hStop _) rfl

theorem run_ofTokens_nil :
    run (ofTokens []) =
      ⟨.ok [], State.ofStream (ofTokens [])⟩ := by
  unfold run
  rw [program_of_finished rfl]

/-
  The tokens that a cursor has still to read make a list
  that is parsed like the text itself.
-/
theorem outcome_skip
    (text : String)
    (n : Nat) :
    (run (ofCursor
        ((Scan.Cursor.ofSource text).skip n))).outcome =
      (run (ofTokens
        ((Scan.tokenize text).drop n))).outcome := by
  rw [run_ofCursor, Scan.Cursor.tokens_skip]
  unfold Scan.tokenize
  by_cases hLength :
      n ≤ (Scan.tokens text.toList).length
  · rw [List.drop_append_of_le_length hLength]
    refine (run_ofTokens_concat ?_ rfl).symm
    intro token hMem
    exact
      Token.kind_ne_eof_of_mem_tokens
        (List.mem_of_mem_drop hMem)
  · -- The end token has been read as well.
    have hNil :
        (Scan.tokens text.toList).drop n = [] :=
      List.drop_eq_nil_of_le (by omega)
    have hAll :
        (Scan.tokens text.toList ++ [Token.eof]).drop n =
          [] := by
      apply List.drop_eq_nil_of_le
      rw [List.length_append, List.length_singleton]
      omega
    have hText :
        (Scan.Cursor.ofSource text).ahead = text.toList :=
      rfl
    rw [hText, hNil, hAll, run_ofTokens_nil]
    exact Prod.ext rfl (Log.translate_empty _)

/- No error of a scanned source says that a token is missing. -/
theorem error_ne_of_ofCursor
    {cursor : Scan.Cursor}
    {diagnostic : Diagnostic}
    (hMem :
      diagnostic ∈ (run (ofCursor cursor)).final.log.toList) :
    diagnostic.error ≠ .missingToken ∧
      ∀ expected,
        diagnostic.error ≠
          .unexpectedToken expected none := by
  have hLog := congrArg Prod.snd (run_ofCursor cursor)
  unfold Run.outcome at hLog
  dsimp only at hLog
  rw [hLog] at hMem
  unfold Log.translate at hMem
  rw [Array.toList_map] at hMem
  rcases List.mem_map.mp hMem with ⟨before, -, rfl⟩
  exact ParseError.endedBy_ne Token.eof before.error

/- A scanned source that has no fault stops at an end token. -/
theorem current_of_ofCursor
    {cursor : Scan.Cursor}
    {program : Program}
    (hProgram :
      (run (ofCursor cursor)).program = .ok program) :
    ∃ token,
      (run (ofCursor cursor)).final.stream.current =
          some token ∧
        token.kind = .eof := by
  have hCourse :=
    course_program (State.ofStream (ofCursor cursor))
  have hFinished :
      (run (ofCursor cursor)).final.isFinished = true :=
    hCourse.isFinished hProgram
  rcases hCourse.later with ⟨n, hLater⟩
  have hStream :
      (run (ofCursor cursor)).final.stream =
        (ofCursor cursor).skip n := hLater
  have hCurrent :
      (run (ofCursor cursor)).final.stream.current =
        some (cursor.skip n).next.1 := by
    rw [hStream, current_skip, cursor.get?_ofCursor]
  refine ⟨_, hCurrent, ?_⟩
  unfold State.isFinished at hFinished
  rw [hCurrent] at hFinished
  simpa using hFinished

------------------------------------------------------------
-- All Sources
------------------------------------------------------------

/-
  All sources of the same tokens are parsed alike.

  A scanned text, of which any number of tokens have been
  read before, is parsed like the list of those that are
  left. In none of its errors a token is missing, and it has
  a fault or stops at an end token. A list that runs dry is
  parsed like the list that an end token closes, but for the
  errors in which it stands in the place of none.
-/
theorem run_sources :
    (∀ (text : String) (n : Nat),
      let cursor := (Scan.Cursor.ofSource text).skip n
      let scanned := run (ofCursor cursor)
      (∀ i,
        (ofCursor cursor).get? i =
          some (cursor.skip i).next.1) ∧
        scanned.outcome =
          (run (ofTokens
            ((Scan.tokenize text).drop n))).outcome ∧
        (∀ diagnostic ∈ scanned.final.log.toList,
          diagnostic.error ≠ .missingToken ∧
            ∀ expected,
              diagnostic.error ≠
                .unexpectedToken expected none) ∧
        ∀ program, scanned.program = .ok program →
          ∃ token,
            scanned.final.stream.current = some token ∧
              token.kind = .eof) ∧
    ∀ (tokens : List Token) (stop : Token),
      (∀ token ∈ tokens, token.kind ≠ .eof) →
        stop.kind = .eof →
          let dry := run (ofTokens tokens)
          let closed := run (ofTokens (tokens ++ [stop]))
          closed.program = dry.program ∧
            closed.final.log =
              dry.final.log.translate
                (ParseError.endedBy stop) := by
  constructor
  · intro text n cursor scanned
    refine ⟨cursor.get?_ofCursor, outcome_skip text n, ?_, ?_⟩
    · intro diagnostic hMem
      exact error_ne_of_ofCursor hMem
    · intro program hProgram
      exact current_of_ofCursor hProgram
  · intro tokens stop hTokens hStop dry closed
    have hClosed := run_ofTokens_concat hTokens hStop
    unfold Run.outcome at hClosed
    exact Prod.mk.inj hClosed

/-
  A binding without a name: behind a number that was read
  before, in a list that runs dry, and before an end token.
-/
theorem run_sources_unnamed :
    (∃ token,
      (run (ofCursor
          ((Scan.Cursor.ofSource
            "1 let").skip 1))).final.stream.current =
            some token ∧
        token.kind = .eof) ∧
      (run (ofTokens [⟨.letWord, "let"⟩])).final.log =
        #[Diagnostic.root (.unexpectedToken .ident none),
          Diagnostic.root (.statementFailed .binding)] ∧
      (run (ofTokens
          ([⟨.letWord, "let"⟩] ++ [Token.eof]))).final.log =
        (run (ofTokens
          [⟨.letWord, "let"⟩])).final.log.translate
            (ParseError.endedBy Token.eof) := by
  refine ⟨?_, by decide +kernel, ?_⟩
  · have hProgram :
        (run (ofCursor
          ((Scan.Cursor.ofSource "1 let").skip 1))).program =
            .ok [] :=
      eq_ok_of_toOption (by decide +kernel)
    exact (run_sources.1 "1 let" 1).2.2.2 [] hProgram
  · exact
      (run_sources.2 [⟨.letWord, "let"⟩] Token.eof
        (by decide) rfl).2

end Parse

end LetLang

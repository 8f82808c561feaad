import LetLang.Proofs.Parse.Crossing
import LetLang.Proofs.Parse.Recovery

/-
  The end token: whether a parse depends on what is behind
  it.

  Two lists of tokens that are the same up to an end token
  are parsed alike as long as that token is not passed. Once
  it is, the parse goes on with what is behind it. So it
  does matter what that is, unless the parse stops at the
  end token or comes to a fault before.

  Key definitions include:
    * `Parse.Run.outcome`

  Main declarations:
    * `Parse.outcome_eq_iff`
-/

namespace LetLang

namespace Parse

------------------------------------------------------------
-- Behind the End Token
------------------------------------------------------------

/- What a parse came to: its program or fault, and its log. -/
def Run.outcome
    (run : Run) : Except Fault Program × Log :=
  (run.program, run.final.log)

/- A parse that starts at a semicolon records an error. -/
theorem size_lt_of_semicolon
    {state : State}
    {mark : Token}
    (hCurrent : state.stream.current = some mark)
    (hMark : mark.kind = .semicolon) :
    state.log.size < (program state).2.log.size := by
  have hUnfinished : state.isFinished = false := by
    simp [State.isFinished, hCurrent, hMark]
  rcases statement_of_isMark hCurrent
      (by simp [Token.Kind.isMark, hMark]) with
    ⟨raised, after, hAttempt, -⟩
  rw [program_of_failed hUnfinished hAttempt]
  exact size_lt_of_failed hAttempt (course_program _)

/-
  The parse of a list up to an end token tells how the parse
  of a longer list ends.
-/
theorem crossing_of_run
    {tokens : List Token}
    {stop : Token}
    (hTokens : ∀ token ∈ tokens, token.kind ≠ .eof)
    (hStop : stop.kind = .eof)
    (later : List Token) :
    Crossing Eq
      ⟨[some stop], false, tokens.length⟩
      ⟨some stop :: later.map some, false, tokens.length⟩
      (State.ofStream
        (TokenStream.ofTokens (tokens ++ stop :: later)))
      (run (TokenStream.ofTokens (tokens ++ [stop]))).program
      (run (TokenStream.ofTokens
        (tokens ++ [stop]))).final := by
  have hParallel :
      TokenStream.Parallel
        ⟨[some stop], false, tokens.length⟩
        ⟨some stop :: later.map some, false, tokens.length⟩
        tokens
        (TokenStream.ofTokens (tokens ++ [stop]))
        (TokenStream.ofTokens (tokens ++ stop :: later)) := by
    constructor
    · exact
        ⟨List.map_append, rfl, (Nat.zero_add _).symm⟩
    · exact
        ⟨List.map_append, rfl, (Nat.zero_add _).symm⟩
  have hEnds :
      EndsAlike id
        ⟨[some stop], false, tokens.length⟩
        ⟨some stop :: later.map some, false,
          tokens.length⟩ := by
    refine ⟨?_, ?_, .id_of_current rfl⟩
    · exact TokenStream.isEnd_singleton hStop tokens.length
    · rintro token ⟨⟩
      exact hStop
  have hCrossing :=
    (course_program _).crossing hEnds
      (.of_parallel hParallel hTokens)
  rw [translated_id] at hCrossing
  exact hCrossing

/- A parse that stops at the end token sees nothing behind. -/
theorem outcome_eq_of_stops
    {tokens : List Token}
    {stop : Token}
    (hTokens : ∀ token ∈ tokens, token.kind ≠ .eof)
    (hStop : stop.kind = .eof)
    (hEnds :
      (∃ fault,
        (run (TokenStream.ofTokens
          (tokens ++ [stop]))).program = .error fault) ∨
        (run (TokenStream.ofTokens
          (tokens ++ [stop]))).final.stream.current =
            some stop)
    (later : List Token) :
    (run (TokenStream.ofTokens
        (tokens ++ stop :: later))).outcome =
      (run (TokenStream.ofTokens
        (tokens ++ [stop]))).outcome := by
  have hCrossing := crossing_of_run hTokens hStop later
  unfold Run.outcome
  generalize run (TokenStream.ofTokens (tokens ++ [stop])) =
    first at hEnds hCrossing ⊢
  rcases first with ⟨result, final⟩
  dsimp only at hEnds hCrossing ⊢
  cases hCrossing with
  | fatal hOther hLog =>
      rw [← hLog]
      unfold run
      rw [hOther]
  | stops hOther hLog hFinal =>
      rw [← hLog]
      unfold run
      rw [hOther]
  | crosses hOther hLog hFinal hLater =>
      rcases hEnds with ⟨fault, hFault⟩ | hCurrent
      · cases hFault
      · rcases hFinal with hFinal | hFinal
        · rw [hFinal] at hCurrent
          cases hCurrent
        · rw [hFinal] at hCurrent
          cases hCurrent

/-
  The exact condition under which it does not matter what is
  behind an end token: the parse of the list that ends with
  it comes to a fault, or stops at the end token and has not
  passed it.
-/
theorem outcome_eq_iff
    (tokens : List Token)
    (stop : Token)
    (hTokens : ∀ token ∈ tokens, token.kind ≠ .eof)
    (hStop : stop.kind = .eof) :
    (∀ first second,
        (run (TokenStream.ofTokens
            (tokens ++ stop :: first))).outcome =
          (run (TokenStream.ofTokens
            (tokens ++ stop :: second))).outcome) ↔
      (∃ fault,
        (run (TokenStream.ofTokens
          (tokens ++ [stop]))).program = .error fault) ∨
        (run (TokenStream.ofTokens
          (tokens ++ [stop]))).final.stream.current =
            some stop := by
  constructor
  · intro hSame
    -- Semicolons behind the end token would be recorded.
    have hLogs :=
      congrArg Prod.snd
        (hSame [Token.semicolon, Token.semicolon] [])
    have hCrossing :=
      crossing_of_run hTokens hStop
        [Token.semicolon, Token.semicolon]
    unfold Run.outcome at hLogs
    generalize run (TokenStream.ofTokens
      (tokens ++ [stop])) = last at hLogs hCrossing ⊢
    rcases last with ⟨result, final⟩
    dsimp only at hLogs hCrossing ⊢
    cases hCrossing with
    | fatal hOther hLog => exact Or.inl ⟨_, rfl⟩
    | stops hOther hLog hFinal =>
        rw [hFinal]
        exact Or.inr rfl
    | @crosses stmts final later hOther hLog hFinal hLater =>
        have hMark :
            later.stream.current = some Token.semicolon := by
          rcases hLater with hLater | hLater
          · rw [hLater]
            rfl
          · rw [hLater]
            rfl
        have hLess := size_lt_of_semicolon hMark rfl
        unfold run at hLogs
        rw [hOther] at hLogs
        dsimp only at hLogs
        rw [hLogs, hLog] at hLess
        exact absurd hLess (Nat.lt_irrefl _)
  · intro hEnds first second
    rw [outcome_eq_of_stops hTokens hStop hEnds first,
      outcome_eq_of_stops hTokens hStop hEnds second]

/-
  A statement and a semicolon stop at the end token: it does
  not matter that a number follows.
-/
theorem outcome_eq_semicolon :
    (run (TokenStream.ofTokens
        ([⟨.int, "1"⟩, Token.semicolon]
          ++ [Token.eof, ⟨.int, "2"⟩]))).outcome =
      (run (TokenStream.ofTokens
        ([⟨.int, "1"⟩, Token.semicolon]
          ++ [Token.eof]))).outcome := by
  have hSame :=
    (outcome_eq_iff [⟨.int, "1"⟩, Token.semicolon]
      Token.eof (by decide) rfl).mpr
      (Or.inr (by decide +kernel))
  exact hSame [⟨.int, "2"⟩] []

/-
  A statement without a semicolon does not: the end token is
  passed behind it, and what follows is parsed.
-/
theorem outcome_ne_number :
    ¬ ∀ (tokens : List Token) (stop : Token),
      (∀ token ∈ tokens, token.kind ≠ .eof) →
        stop.kind = .eof →
          ∀ first second,
            (run (TokenStream.ofTokens
                (tokens ++ stop :: first))).outcome =
              (run (TokenStream.ofTokens
                (tokens ++ stop :: second))).outcome := by
  intro hSame
  have hBoth :=
    hSame [⟨.int, "1"⟩] Token.eof (by decide) rfl
      [⟨.int, "2"⟩] []
  have hPrograms :=
    congrArg (fun outcome => outcome.1.toOption) hBoth
  exact absurd hPrograms (by decide +kernel)

end Parse

end LetLang

import LetLang.Proofs.Parse.Blocks
import LetLang.Proofs.Parse.Reading

/-
  Accounting: which tokens of a list each attempt takes, and
  where the next attempt starts.

  A list has no gaps and nothing behind it, so what is ahead
  of a stream over it is known from a place alone. Behind
  the list all places are alike: nothing is there.

  An attempt that gives a statement takes the tokens of it
  and those that are passed behind it. One that fails is
  followed from where its rule gave up, or from the obstacle
  that its expression met.

  Key definitions include:
    * `Token.kindAt`
    * `TokenStream.IsAt`
    * `Parse.Resumes`
    * `Parse.Itinerary`
    * `Parse.Slices`

  Main declarations:
    * `Parse.resumes_of_done`
    * `Parse.resumes_of_failed`
    * `Parse.Itinerary.slices`
    * `Parse.run_itinerary`
-/

------------------------------------------------------------
-- Places in a List
------------------------------------------------------------

namespace LetLang

/- The kind of the token at a place, if there is one. -/
def Token.kindAt
    (tokens : List Token)
    (i : Nat) : Option Token.Kind :=
  tokens[i]?.map Token.kind

/-
  The tokens ahead of a stream are those of a list from a
  place on, and nothing is behind them.
-/
structure TokenStream.IsAt
    (stream : TokenStream)
    (tokens : List Token)
    (i : Nat) : Prop where
  rest_eq : stream.rest = (tokens.drop i).map some
  endless_eq : stream.endless = false

namespace TokenStream

variable
  {tokens : List Token}
  {stream : TokenStream}
  {i : Nat}

theorem isAt_ofTokens
    (tokens : List Token) :
    (ofTokens tokens).IsAt tokens 0 :=
  ⟨rfl, rfl⟩

namespace IsAt

theorem current_eq
    (h : stream.IsAt tokens i) :
    stream.current = tokens[i]? := by
  rw [← List.head?_drop]
  unfold current beyond
  rw [h.rest_eq, h.endless_eq]
  cases tokens.drop i with
  | nil => rfl
  | cons token rest => rfl

theorem advance
    (h : stream.IsAt tokens i) :
    stream.advance.IsAt tokens (i + 1) := by
  constructor
  · simp only [TokenStream.advance]
    rw [h.rest_eq, ← List.map_tail, List.tail_drop]
  · exact h.endless_eq

theorem peek_eq
    (h : stream.IsAt tokens i) :
    stream.peek = tokens[i + 1]? := by
  rw [← current_advance]
  exact h.advance.current_eq

theorem currentIs_iff
    (h : stream.IsAt tokens i)
    (kind : Token.Kind) :
    stream.currentIs kind = true ↔
      Token.kindAt tokens i = some kind := by
  unfold currentIs Token.kindAt
  rw [h.current_eq]
  cases tokens[i]? with
  | none => simp
  | some token => simp

/- Behind the list there is no telling one place from another. -/
theorem of_length_le
    {j : Nat}
    (h : stream.IsAt tokens i)
    (hEnd : tokens.length ≤ i)
    (hLater : tokens.length ≤ j) :
    stream.IsAt tokens j := by
  constructor
  · rw [h.rest_eq, List.drop_eq_nil_of_le hEnd,
      List.drop_eq_nil_of_le hLater]
  · exact h.endless_eq

theorem reads
    {after : TokenStream}
    {own : List Token}
    (h : stream.IsAt tokens i)
    (hReads : stream.Reads own after) :
    after.IsAt tokens (i + own.length) ∧
      tokens.drop i = own ++ tokens.drop (i + own.length) := by
  have hRest := hReads.rest_eq
  rw [h.rest_eq] at hRest
  rcases List.map_eq_append_iff.mp hRest with
    ⟨first, later, hSplit, hFirst, hLater⟩
  have hOwn : first = own := eq_of_map_some hFirst
  subst hOwn
  have hDrop : tokens.drop (i + first.length) = later := by
    rw [← List.drop_drop, hSplit, List.drop_left]
  refine ⟨⟨?_, ?_⟩, ?_⟩
  · rw [hDrop, hLater]
  · rw [hReads.endless_eq, h.endless_eq]
  · rw [hDrop, hSplit]

theorem extract_eq
    {after : TokenStream}
    {own : List Token}
    (h : stream.IsAt tokens i)
    (hReads : stream.Reads own after) :
    tokens.extract i (i + own.length) = own := by
  rw [List.extract_eq_take_drop, (h.reads hReads).2,
    Nat.add_sub_cancel_left]
  exact List.take_left

theorem length_le
    {after : TokenStream}
    {own : List Token}
    (h : stream.IsAt tokens i)
    (hReads : stream.Reads own after)
    (hOwn : own ≠ []) :
    i + own.length ≤ tokens.length := by
  have hLength := congrArg List.length (h.reads hReads).2
  have hPositive : 0 < own.length :=
    List.length_pos_iff.mpr hOwn
  simp only [List.length_drop, List.length_append]
    at hLength
  omega

end IsAt

end TokenStream

/- What is passed behind a statement, counted in places. -/
theorem Stmt.isAt_leave_advance
    (stmt : Stmt)
    {state : Parse.State}
    {tokens : List Token}
    {i : Nat}
    (h : state.stream.IsAt tokens i) :
    (stmt.leave state).advance.stream.IsAt tokens
      (i + stmt.skips (tokens.drop i)) := by
  cases stmt with
  | letStmt token name value => exact h.advance
  | returnStmt token value => exact h.advance
  | exprStmt token expr =>
      have hPeek :
          state.stream.peekIs .semicolon =
            (tokens.drop i)[1]?.any
              (fun token => token.kind == .semicolon) := by
        rw [List.getElem?_drop]
        unfold TokenStream.peekIs
        rw [h.peek_eq]
      simp only [leave, Parse.passBeforeSemicolon, skips]
      rw [hPeek]
      split
      · exact h.advance.advance
      · exact h.advance

------------------------------------------------------------
-- Where Attempts Resume
------------------------------------------------------------

namespace Parse

/-
  Whether an attempt at a place comes to an expression: if
  there is a reserved word for bindings, a name and a sign
  are behind it.
-/
def ReachesValue
    (tokens : List Token)
    (i : Nat) : Prop :=
  Token.kindAt tokens i = some .letWord →
    Token.kindAt tokens (i + 1) = some .ident ∧
      Token.kindAt tokens (i + 2) = some .assign

/-
  Where the attempt after a round starts, if the attempt of
  the round starts at a place of a list.
-/
inductive Resumes
    (tokens : List Token)
    (i : Nat)
    (round : Round) : Nat → Prop where
  | done
      {stmt : Stmt}
      {sign : Token}
      {stop : Nat}
      (hStmt : round.stmt? = some stmt)
      (hCanonical : stmt.IsCanonical)
      (hSign : sign.kind = .assign)
      (hOwn : tokens.extract i stop = stmt.yieldWith sign)
      (hStart : i < stop)
      (hStop : stop ≤ tokens.length) :
      Resumes tokens i round
        (stop + stmt.skips (tokens.drop stop))
  | unnamed
      (hStmt : round.stmt? = none)
      (hLet : Token.kindAt tokens i = some .letWord)
      (hName : Token.kindAt tokens (i + 1) ≠ some .ident) :
      Resumes tokens i round (i + 1)
  | unsigned
      (hStmt : round.stmt? = none)
      (hLet : Token.kindAt tokens i = some .letWord)
      (hName : Token.kindAt tokens (i + 1) = some .ident)
      (hSign : Token.kindAt tokens (i + 2) ≠ some .assign) :
      Resumes tokens i round (i + 3)
  | unusable
      {token : Token}
      {found : Nat}
      (hStmt : round.stmt? = none)
      (hValue : ReachesValue tokens i)
      (hRoot :
        round.recorded.head? =
          some (Diagnostic.root (.noOperand token)))
      (hToken : tokens[found]? = some token)
      (hFound : i ≤ found) :
      Resumes tokens i round (found + 2)
  | missing
      (hStmt : round.stmt? = none)
      (hValue : ReachesValue tokens i)
      (hRoot :
        round.recorded.head? =
          some (Diagnostic.root .missingToken)) :
      Resumes tokens i round (tokens.length + 2)

/- Where the attempt after a statement starts. -/
theorem resumes_of_done
    {state after : State}
    {stmt : Stmt}
    {tokens : List Token}
    {i : Nat}
    (hAttempt : statement state = (.done stmt, after))
    (h : state.stream.IsAt tokens i) :
    ∃ next,
      Resumes tokens i ⟨state, some stmt, after.advance⟩
          next ∧
        after.advance.stream.IsAt tokens next := by
  rcases reads_of_statement hAttempt with
    ⟨hCanonical, sign, middle, hSign, hReads, -, rfl⟩
  have hOwn := stmt.yieldWith_ne_nil sign
  have hPositive : 0 < (stmt.yieldWith sign).length :=
    List.length_pos_iff.mpr hOwn
  have hMiddle := (h.reads hReads).1
  exact
    ⟨_,
      .done rfl hCanonical hSign (h.extract_eq hReads)
        (Nat.lt_add_of_pos_right hPositive)
        (h.length_le hReads hOwn),
      stmt.isAt_leave_advance hMiddle⟩

/- A statement with an opening comes to its expression. -/
theorem Opening.reachesValue
    {state start : State}
    {form : StatementForm}
    {make : Expr → Stmt}
    {tokens : List Token}
    {i : Nat}
    (hOpening : Opening state form make start)
    (h : state.stream.IsAt tokens i) :
    ReachesValue tokens i := by
  intro hLet
  have hIs := (h.currentIs_iff .letWord).mpr hLet
  cases hOpening with
  | binding hOpening hKind hPeek hName hSign =>
      constructor
      · unfold Token.kindAt
        rw [← h.peek_eq, hPeek, Option.map_some, hName]
      · exact
          (h.advance.advance.currentIs_iff .assign).mp hSign
  | result hOpening hReturn =>
      simp [TokenStream.currentIs, hOpening, hReturn] at hIs
  | bare hNotLet hNotReturn =>
      rw [hNotLet] at hIs
      cases hIs

/- Where an attempt resumes that an obstacle has stopped. -/
theorem Stopped.resumes
    {round : Round}
    {stream after : TokenStream}
    {obstacle : Obstacle}
    {tokens : List Token}
    {i : Nat}
    (hStopped : Stopped stream obstacle after)
    (h : stream.IsAt tokens i)
    (hStmt : round.stmt? = none)
    (hValue : ReachesValue tokens i)
    (hRoot :
      round.recorded.head? =
        some (Diagnostic.root obstacle.error)) :
    ∃ next,
      Resumes tokens i round next ∧
        after.advance.IsAt tokens next := by
  cases hStopped with
  | @missing passed place hReads hCurrent =>
      have hPlace := (h.reads hReads).1
      rw [hPlace.current_eq] at hCurrent
      have hEnd :
          tokens.length ≤ i + passed.length :=
        List.getElem?_eq_none_iff.mp hCurrent
      exact
        ⟨_, .missing hStmt hValue hRoot,
          hPlace.advance.of_length_le (by omega)
            (by omega)⟩
  | @unusable token passed place hReads hCurrent =>
      have hPlace := (h.reads hReads).1
      rw [hPlace.current_eq] at hCurrent
      exact
        ⟨_,
          .unusable hStmt hValue hRoot hCurrent
            (Nat.le_add_right i passed.length),
          hPlace.advance.advance⟩

/- Where the attempt after a failed one starts. -/
theorem resumes_of_failed
    {state after : State}
    {raised : Diagnostic}
    {tokens : List Token}
    {i : Nat}
    (hAttempt : statement state = (.failed raised, after))
    (h : state.stream.IsAt tokens i) :
    ∃ next,
      Resumes tokens i
          ⟨state, none, (after.record raised).advance⟩
          next ∧
        (after.record raised).advance.stream.IsAt
          tokens next := by
  cases statementTrace_iff.mpr hAttempt with
  | unnamed hLet hName =>
      have hKind := (h.currentIs_iff .letWord).mp hLet
      have hNot :
          Token.kindAt tokens (i + 1) ≠ some .ident := by
        unfold Token.kindAt
        rw [← h.peek_eq]
        intro hIdent
        rcases Option.map_eq_some_iff.mp hIdent with
          ⟨name, hPeek, hIs⟩
        exact hName name hPeek hIs
      exact ⟨_, .unnamed rfl hKind hNot, h.advance⟩
  | unsigned hLet hPeek hName hSign =>
      have hKind := (h.currentIs_iff .letWord).mp hLet
      have hIdent :
          Token.kindAt tokens (i + 1) = some .ident := by
        unfold Token.kindAt
        rw [← h.peek_eq, hPeek, Option.map_some, hName]
      have hNot :
          Token.kindAt tokens (i + 2) ≠ some .assign := by
        intro hAssign
        have hIs :
            state.advance.advance.stream.currentIs
              .assign = true :=
          (h.advance.advance.currentIs_iff .assign).mpr
            hAssign
        rw [hSign] at hIs
        cases hIs
      exact
        ⟨_, .unsigned rfl hKind hIdent hNot,
          h.advance.advance.advance⟩
  | @failed start middle form make cause hOpening
      hExpression =>
      rcases toList_log_of_failed hOpening hExpression with
        ⟨failure, hFailure, hLog⟩
      rcases hOpening.reads with
        ⟨sign, opening, -, hReads, -⟩
      have hStopped :
          Stopped state.stream failure.obstacle
            middle.stream :=
        (hFailure.stoppedBy rfl).of_reads hReads
      apply hStopped.resumes h rfl (hOpening.reachesValue h)
      rw [Round.recorded_eq hLog]
      exact Diagnostic.head?_chain _ _ _

------------------------------------------------------------
-- Itineraries
------------------------------------------------------------

/-
  The rounds of a parse with the places where their attempts
  start. Attempts are made up to the first place from which
  none is made: behind the list, or at an end token.
-/
inductive Itinerary
    (tokens : List Token) :
    Nat → List Round → Nat → Prop where
  | finished
      {i : Nat}
      (hStop :
        Token.kindAt tokens i = none ∨
          Token.kindAt tokens i = some .eof) :
      Itinerary tokens i [] i
  | cons
      {i next last : Nat}
      {round : Round}
      {rounds : List Round}
      (hSome : Token.kindAt tokens i ≠ none)
      (hKind : Token.kindAt tokens i ≠ some .eof)
      (hBefore : round.before.stream.IsAt tokens i)
      (hResumes : Resumes tokens i round next)
      (hNext : round.next.stream.IsAt tokens next)
      (hLater : Itinerary tokens next rounds last) :
      Itinerary tokens i (round :: rounds) last

/- A state is finished exactly where no attempt is made. -/
theorem isFinished_iff
    {state : State}
    {tokens : List Token}
    {i : Nat}
    (h : state.stream.IsAt tokens i) :
    state.isFinished = true ↔
      Token.kindAt tokens i = none ∨
        Token.kindAt tokens i = some .eof := by
  unfold State.isFinished Token.kindAt
  rw [h.current_eq]
  cases tokens[i]? with
  | none => simp
  | some token => simp

theorem kindAt_of_not_isFinished
    {state : State}
    {tokens : List Token}
    {i : Nat}
    (h : state.stream.IsAt tokens i)
    (hUnfinished : state.isFinished = false) :
    Token.kindAt tokens i ≠ none ∧
      Token.kindAt tokens i ≠ some .eof := by
  have hNot := mt (isFinished_iff h).mpr
    (Bool.eq_false_iff.mp hUnfinished)
  exact not_or.mp hNot

/- The rounds of a parse of a list have an itinerary. -/
theorem Rounds.exists_itinerary
    {state final : State}
    {rounds : List Round}
    (hRounds : Rounds state rounds final)
    {tokens : List Token}
    {i : Nat}
    (h : state.stream.IsAt tokens i) :
    ∃ last,
      Itinerary tokens i rounds last ∧
        final.stream.IsAt tokens last := by
  induction hRounds generalizing i with
  | finished hFinished =>
      exact
        ⟨i, .finished ((isFinished_iff h).mp hFinished), h⟩
  | done hUnfinished hAttempt hLater ih =>
      rcases kindAt_of_not_isFinished h hUnfinished with
        ⟨hSome, hKind⟩
      rcases resumes_of_done hAttempt h with
        ⟨next, hResumes, hNext⟩
      rcases ih hNext with ⟨last, hItinerary, hFinal⟩
      exact
        ⟨last,
          .cons hSome hKind h hResumes hNext hItinerary,
          hFinal⟩
  | failed hUnfinished hAttempt hLater ih =>
      rcases kindAt_of_not_isFinished h hUnfinished with
        ⟨hSome, hKind⟩
      rcases resumes_of_failed hAttempt h with
        ⟨next, hResumes, hNext⟩
      rcases ih hNext with ⟨last, hItinerary, hFinal⟩
      exact
        ⟨last,
          .cons hSome hKind h hResumes hNext hItinerary,
          hFinal⟩

------------------------------------------------------------
-- Slices
------------------------------------------------------------

/-
  The statements of a program are slices of a list from a
  place on, in order, none of which overlaps another.
-/
inductive Slices
    (tokens : List Token) :
    Nat → Program → Prop where
  | nil
      {i : Nat} :
      Slices tokens i []
  | cons
      {i start stop : Nat}
      {stmt : Stmt}
      {sign : Token}
      {program : Program}
      (hFrom : i ≤ start)
      (hStart : start < stop)
      (hStop : stop ≤ tokens.length)
      (hSign : sign.kind = .assign)
      (hOwn : tokens.extract start stop = stmt.yieldWith sign)
      (hLater : Slices tokens stop program) :
      Slices tokens i (stmt :: program)

theorem Slices.of_le
    {tokens : List Token}
    {i j : Nat}
    {program : Program}
    (hSlices : Slices tokens j program)
    (hLe : i ≤ j) :
    Slices tokens i program := by
  cases hSlices with
  | nil => exact .nil
  | cons hFrom hStart hStop hSign hOwn hLater =>
      exact
        .cons (Nat.le_trans hLe hFrom) hStart hStop hSign
          hOwn hLater

/- A failed attempt leads to a later place. -/
theorem Resumes.lt_of_failed
    {tokens : List Token}
    {i next : Nat}
    {round : Round}
    (hResumes : Resumes tokens i round next)
    (hStmt : round.stmt? = none)
    (hSome : Token.kindAt tokens i ≠ none) :
    i < next := by
  cases hResumes with
  | done hDone hCanonical hSign hOwn hStart hStop =>
      rw [hStmt] at hDone
      cases hDone
  | unnamed hStmt hLet hName => omega
  | unsigned hStmt hLet hName hSign => omega
  | unusable hStmt hValue hRoot hToken hFound => omega
  | missing hStmt hValue hRoot =>
      have hLess : i < tokens.length := by
        apply Nat.lt_of_not_le
        intro hEnd
        apply hSome
        unfold Token.kindAt
        rw [List.getElem?_eq_none hEnd]
        rfl
      omega

/- A statement is a slice that ends before the next attempt. -/
theorem Resumes.exists_slice
    {tokens : List Token}
    {i next : Nat}
    {round : Round}
    {stmt : Stmt}
    (hResumes : Resumes tokens i round next)
    (hStmt : round.stmt? = some stmt) :
    ∃ sign stop,
      sign.kind = .assign ∧
        tokens.extract i stop = stmt.yieldWith sign ∧
        i < stop ∧ stop ≤ tokens.length ∧ stop ≤ next := by
  have hNot : round.stmt? ≠ none := by
    rw [hStmt]
    exact Option.some_ne_none stmt
  cases hResumes with
  | @done found sign stop hDone hCanonical hSign hOwn hStart
      hStop =>
      rw [hStmt] at hDone
      cases hDone
      exact
        ⟨sign, stop, hSign, hOwn, hStart, hStop,
          Nat.le_add_right _ _⟩
  | unnamed hNone => exact absurd hNone hNot
  | unsigned hNone => exact absurd hNone hNot
  | unusable hNone => exact absurd hNone hNot
  | missing hNone => exact absurd hNone hNot

/- The statements of an itinerary are slices of the list. -/
theorem Itinerary.slices
    {tokens : List Token}
    {i last : Nat}
    {rounds : List Round}
    (hItinerary : Itinerary tokens i rounds last) :
    Slices tokens i (rounds.filterMap Round.stmt?) := by
  induction hItinerary with
  | finished hStop => exact .nil
  | @cons i next last round rounds hSome hKind hBefore
      hResumes hNext hLater ih =>
      cases hStmt : round.stmt? with
      | none =>
          have hLess := hResumes.lt_of_failed hStmt hSome
          rw [List.filterMap_cons_none hStmt]
          exact ih.of_le (Nat.le_of_lt hLess)
      | some stmt =>
          rw [List.filterMap_cons_some hStmt]
          rcases hResumes.exists_slice hStmt with
            ⟨sign, stop, hSign, hOwn, hStart, hStop, hLe⟩
          exact
            .cons (Nat.le_refl i) hStart hStop hSign hOwn
              (ih.of_le hLe)

------------------------------------------------------------
-- Parses of Lists
------------------------------------------------------------

/-
  The account of a parse of a list that ends with a program:
  the attempts start at the first token and go on as the
  itinerary tells, and the statements come from slices of
  the list.
-/
theorem run_itinerary
    (tokens : List Token)
    (program : Program)
    (hProgram :
      (run (TokenStream.ofTokens tokens)).program =
        .ok program) :
    ∃ rounds last,
      Rounds (State.ofStream (TokenStream.ofTokens tokens))
          rounds (run (TokenStream.ofTokens tokens)).final ∧
        program = rounds.filterMap Round.stmt? ∧
        Itinerary tokens 0 rounds last ∧
        (run (TokenStream.ofTokens
          tokens)).final.stream.IsAt tokens last ∧
        Slices tokens 0 program := by
  rcases exists_rounds_of_run hProgram with
    ⟨rounds, hRounds, rfl⟩
  rcases hRounds.exists_itinerary
      (TokenStream.isAt_ofTokens tokens) with
    ⟨last, hItinerary, hFinal⟩
  exact
    ⟨rounds, last, hRounds, rfl, hItinerary, hFinal,
      hItinerary.slices⟩

/-
  A binding without a name and two numbers: the attempt at
  the reserved word resumes at the first number, and the
  second one is passed behind it.
-/
theorem run_itinerary_unnamed :
    ∃ rounds last,
      Itinerary
          [⟨.letWord, "let"⟩, ⟨.int, "1"⟩, ⟨.int, "2"⟩]
          0 rounds last ∧
        Slices
          [⟨.letWord, "let"⟩, ⟨.int, "1"⟩, ⟨.int, "2"⟩]
          0 [.exprStmt ⟨.int, "1"⟩ (.int ⟨.int, "1"⟩ 1)] := by
  have hProgram :
      (run (TokenStream.ofTokens
        [⟨.letWord, "let"⟩, ⟨.int, "1"⟩,
          ⟨.int, "2"⟩])).program =
        .ok [.exprStmt ⟨.int, "1"⟩ (.int ⟨.int, "1"⟩ 1)] :=
    eq_ok_of_toOption (by decide +kernel)
  rcases run_itinerary _ _ hProgram with
    ⟨rounds, last, -, -, hItinerary, -, hSlices⟩
  exact ⟨rounds, last, hItinerary, hSlices⟩

end Parse

end LetLang

import LetLang.Proofs.Parse.Progress
import LetLang.Proofs.Parse.ParallelStatement

/-
  Crossings: parses of two streams that come to their ends
  by the same tokens.

  Of the first stream nothing is left at its stop but end
  tokens, if anything. The attempts on the two streams are
  alike until an end token is passed. This need not be the
  loop's doing: it can be what failed as an operand, and it
  can be the place that is passed behind an attempt. Then
  the parse of the first stream is over, and the other goes
  on with what is behind its stop.

  Key definitions include:
    * `TokenStream.IsEnd`
    * `TokenStream.Behind`
    * `Parse.EndsAlike`
    * `Parse.Crossing`
    * `Parse.Abreast`

  Main declarations:
    * `Parse.Course.crossing`
    * `Parse.Crossing.exists_final`
-/

------------------------------------------------------------
-- Ends
------------------------------------------------------------

namespace LetLang

namespace TokenStream

/- Nothing is left of a stream but end tokens. -/
def IsEnd
    (stream : TokenStream) : Prop :=
  ∀ i token, stream.get? i = some token → token.kind = .eof

namespace IsEnd

variable
  {stream after : TokenStream}

theorem kind_eq
    (hEnd : stream.IsEnd)
    {token : Token}
    (hCurrent : stream.current = some token) :
    token.kind = .eof := by
  rw [← get?_zero] at hCurrent
  exact hEnd 0 token hCurrent

theorem of_later
    (hEnd : stream.IsEnd)
    (hLater : stream.Later after) :
    after.IsEnd := by
  rcases hLater with ⟨n, rfl⟩
  intro i token hToken
  rw [get?_skip] at hToken
  exact hEnd (n + i) token hToken

end IsEnd

theorem isEnd_singleton
    {stop : Token}
    (hStop : stop.kind = .eof)
    (position : Nat) :
    IsEnd ⟨[some stop], false, position⟩ := by
  intro i token hToken
  cases i with
  | zero =>
      cases hToken
      exact hStop
  | succ i => cases hToken

------------------------------------------------------------
-- Passing a Stop
------------------------------------------------------------

/- A stop has been passed, or it and the place behind it. -/
def Behind
    (stop stream : TokenStream) : Prop :=
  stream = stop.advance ∨ stream = stop.advance.advance

theorem Behind.later
    {stop stream : TokenStream}
    (hBehind : Behind stop stream) :
    stop.Later stream := by
  rcases hBehind with rfl | rfl
  · exact later_advance stop
  · exact (later_advance stop.advance).of_advance

/-
  Two streams are before their stops or at them, or their
  stops have been passed.
-/
def BeforeOrBehind
    (stop otherStop stream other : TokenStream) : Prop :=
  (∃ left, Parallel stop otherStop left stream other) ∨
    Behind stop stream ∧ Behind otherStop other

section Steps

variable
  {stop otherStop stream other : TokenStream}

/- Passing a place passes a token on both streams or a stop. -/
theorem Parallel.beforeOrBehind
    {shared : List Token}
    (h : Parallel stop otherStop shared stream other) :
    BeforeOrBehind stop otherStop stream.advance
      other.advance := by
  cases shared with
  | nil =>
      rw [h.eq_stops.1, h.eq_stops.2]
      exact Or.inr ⟨Or.inl rfl, Or.inl rfl⟩
  | cons first later => exact Or.inl ⟨later, h.advance⟩

/- Behind the place of an obstacle a stop has been passed. -/
theorem behind_past
    (stop : TokenStream) :
    Behind stop stop.past.advance := by
  unfold past
  split
  · exact Or.inl rfl
  · exact Or.inr rfl

/- The same where both are past what stands at their stops. -/
theorem Together.beforeOrBehind
    (h : Together stop otherStop stream other) :
    BeforeOrBehind stop otherStop stream.advance
      other.advance := by
  rcases h with ⟨left, hLeft⟩ | ⟨rfl, rfl⟩
  · exact hLeft.beforeOrBehind
  · exact Or.inr ⟨behind_past stop, behind_past otherStop⟩

theorem Parallel.currentIs_eq_of_stops
    {shared : List Token}
    {kind : Token.Kind}
    (h : Parallel stop otherStop shared stream other)
    (hSame : otherStop.currentIs kind = stop.currentIs kind) :
    other.currentIs kind = stream.currentIs kind := by
  cases shared with
  | nil => rw [h.eq_stops.1, h.eq_stops.2, hSame]
  | cons token shared =>
      rw [currentIs_of_current h.current_cons.1,
        currentIs_of_current h.current_cons.2]

end Steps

end TokenStream

/- What is passed behind a statement are one or two places. -/
theorem Stmt.behind_leave
    (stmt : Stmt)
    (stop : TokenStream)
    (log : Log) :
    TokenStream.Behind stop
      (stmt.leave ⟨stop, log⟩).advance.stream := by
  cases stmt with
  | letStmt token name value => exact Or.inl rfl
  | returnStmt token value => exact Or.inl rfl
  | exprStmt token expr =>
      simp only [leave, Parse.passBeforeSemicolon]
      split
      · exact Or.inr rfl
      · exact Or.inl rfl

/-
  Before their stops both streams pass the same, if both
  stops are semicolons or neither is.
-/
theorem Stmt.beforeOrBehind_leave
    (stmt : Stmt)
    {stop otherStop middle other : TokenStream}
    {left : List Token}
    (h :
      TokenStream.Parallel stop otherStop left middle other)
    (hSame :
      otherStop.currentIs .semicolon =
        stop.currentIs .semicolon)
    (log otherLog : Log) :
    TokenStream.BeforeOrBehind stop otherStop
      (stmt.leave ⟨middle, log⟩).advance.stream
      (stmt.leave ⟨other, otherLog⟩).advance.stream := by
  cases left with
  | nil =>
      rcases h.eq_stops with ⟨rfl, rfl⟩
      exact
        Or.inr ⟨stmt.behind_leave _ _, stmt.behind_leave _ _⟩
  | cons token left =>
      cases stmt with
      | letStmt opening name value => exact h.beforeOrBehind
      | returnStmt opening value => exact h.beforeOrBehind
      | exprStmt opening expr =>
          have hPeek :
              other.peekIs .semicolon =
                middle.peekIs .semicolon := by
            unfold TokenStream.peekIs
            rw [← TokenStream.current_advance,
              ← TokenStream.current_advance]
            exact h.advance.currentIs_eq_of_stops hSame
          simp only [leave, Parse.passBeforeSemicolon, hPeek]
          split
          · exact h.advance.beforeOrBehind
          · exact h.beforeOrBehind

------------------------------------------------------------
-- Crossings
------------------------------------------------------------

namespace Parse

/-
  How a parse on one of two parallel streams ends, with what
  the parse on the other does: both end in the same fault;
  or both stop at their stops with the same program; or the
  first has passed its stop, and the other goes on behind
  its own with the program of the first. The logs are the
  same in the sense that is given.
-/
inductive Crossing
    (same : Log → Log → Prop)
    (stop otherStop : TokenStream)
    (other : State) :
    Except Fault Program → State → Prop where
  | fatal
      {fault : Fault}
      {final otherFinal : State}
      (hOther : program other = (.error fault, otherFinal))
      (hLog : same otherFinal.log final.log) :
      Crossing same stop otherStop other (.error fault) final
  | stops
      {stmts : Program}
      {final otherFinal : State}
      (hOther : program other = (.ok stmts, otherFinal))
      (hLog : same otherFinal.log final.log)
      (hFinal : final.stream = stop) :
      Crossing same stop otherStop other (.ok stmts) final
  | crosses
      {stmts : Program}
      {final later : State}
      (hOther :
        program other =
          ((program later).1.map (stmts ++ ·),
            (program later).2))
      (hLog : same later.log final.log)
      (hFinal : TokenStream.Behind stop final.stream)
      (hLater : TokenStream.Behind otherStop later.stream) :
      Crossing same stop otherStop other (.ok stmts) final

theorem isFinished_of_kind
    {state : State}
    (hKind :
      ∀ token,
        state.stream.current = some token →
          token.kind = .eof) :
    state.isFinished = true := by
  unfold State.isFinished
  cases hCurrent : state.stream.current with
  | none => rfl
  | some token => simp [hKind token hCurrent]

theorem isFinished_of_isEnd
    {state : State}
    (hEnd : state.stream.IsEnd) :
    state.isFinished = true :=
  isFinished_of_kind (fun _ => hEnd.kind_eq)

namespace Crossing

variable
  {same : Log → Log → Prop}
  {stop otherStop : TokenStream}
  {other next final : State}
  {result : Except Fault Program}

/- A failed attempt leaves the crossing to those behind it. -/
theorem of_eq
    (hEq : program other = program next)
    (h : Crossing same stop otherStop next result final) :
    Crossing same stop otherStop other result final := by
  cases h with
  | fatal hOther hLog => exact .fatal (hEq.trans hOther) hLog
  | stops hOther hLog hFinal =>
      exact .stops (hEq.trans hOther) hLog hFinal
  | crosses hOther hLog hFinal hLater =>
      exact .crosses (hEq.trans hOther) hLog hFinal hLater

theorem cons
    {stmt : Stmt}
    (hEq :
      program other =
        ((program next).1.map (stmt :: ·), (program next).2))
    (h : Crossing same stop otherStop next result final) :
    Crossing same stop otherStop other
      (result.map (stmt :: ·)) final := by
  cases h with
  | fatal hOther hLog =>
      rw [hOther] at hEq
      exact .fatal hEq hLog
  | stops hOther hLog hFinal =>
      rw [hOther] at hEq
      exact .stops hEq hLog hFinal
  | @crosses stmts final later hOther hLog hFinal hLater =>
      rw [hOther] at hEq
      have hBoth :
          program other =
            ((program later).1.map (stmt :: stmts ++ ·),
              (program later).2) := by
        rw [hEq]
        cases (program later).1 with
        | error fault => rfl
        | ok program => rfl
      exact .crosses hBoth hLog hFinal hLater

/- Where both stops have been passed, nothing is done yet. -/
theorem of_behind
    {state : State}
    (hBehind : TokenStream.Behind stop state.stream)
    (hOther : TokenStream.Behind otherStop other.stream)
    (hLog : same other.log state.log) :
    Crossing same stop otherStop other (.ok []) state := by
  have hSame :
      program other =
        ((program other).1.map ([] ++ ·),
          (program other).2) := by
    cases hResult : program other with
    | mk result final => cases result <;> rfl
  exact .crosses hSame hLog hBehind hOther

/-
  If the other stop is an end as well, nothing is done
  behind it, and both parses come to the same.
-/
theorem exists_final
    (h : Crossing same stop otherStop other result final)
    (hEnd : otherStop.IsEnd) :
    ∃ otherFinal,
      program other = (result, otherFinal) ∧
        same otherFinal.log final.log := by
  cases h with
  | fatal hOther hLog => exact ⟨_, hOther, hLog⟩
  | stops hOther hLog hFinal => exact ⟨_, hOther, hLog⟩
  | @crosses stmts final later hOther hLog hFinal hLater =>
      have hFinished : later.isFinished = true :=
        isFinished_of_isEnd (hEnd.of_later hLater.later)
      rw [program_of_finished hFinished] at hOther
      refine ⟨later, ?_, hLog⟩
      rw [hOther]
      simp [Except.map]

end Crossing

------------------------------------------------------------
-- Courses
------------------------------------------------------------

/-
  Two streams stop at end tokens or have no more tokens; of
  the first stream nothing else is left. There is a
  translation of the errors at the first stop.
-/
structure EndsAlike
    (change : ParseError → ParseError)
    (stop otherStop : TokenStream) : Prop where
  isEnd : stop.IsEnd
  other_kind_eq :
    ∀ token,
      otherStop.current = some token → token.kind = .eof
  translates :
    TokenStream.Translates stop otherStop change

/-
  Two states are abreast: up to their stops the streams have
  the same tokens, none of which is an end token, and the
  log of the other state is a translation.
-/
structure Abreast
    (change : ParseError → ParseError)
    (stop otherStop : TokenStream)
    (shared : List Token)
    (state other : State) : Prop where
  streams :
    TokenStream.Parallel stop otherStop shared state.stream
      other.stream
  kind_ne_eof : ∀ token ∈ shared, token.kind ≠ .eof
  log_eq : other.log = state.log.translate change

/- One log is a translation of another one. -/
def Translated
    (change : ParseError → ParseError)
    (otherLog log : Log) : Prop :=
  otherLog = log.translate change

theorem translated_id :
    Translated id = Eq := by
  funext otherLog log
  simp [Translated]

section Courses

variable
  {change : ParseError → ParseError}
  {stop otherStop : TokenStream}
  {shared : List Token}
  {state after other : State}

namespace EndsAlike

/- Both streams stop where no kind but the end's is current. -/
theorem currentIs_eq_false
    (hEnds : EndsAlike change stop otherStop)
    {kind : Token.Kind}
    (hKind : kind.isEof = false) :
    stop.currentIs kind = false ∧
      otherStop.currentIs kind = false := by
  have hNot
      {stream : TokenStream}
      (hEnd :
        ∀ token,
          stream.current = some token → token.kind = .eof) :
      stream.currentIs kind = false := by
    apply Bool.eq_false_iff.mpr
    intro hIs
    rcases TokenStream.exists_current_of_currentIs hIs with
      ⟨token, hCurrent, rfl⟩
    rw [hEnd token hCurrent] at hKind
    cases hKind
  exact
    ⟨hNot (fun token => hEnds.isEnd.kind_eq),
      hNot hEnds.other_kind_eq⟩

/- End tokens are stops for the parser. -/
theorem isStop
    (hEnds : EndsAlike change stop otherStop) :
    stop.IsStop ∧ otherStop.IsStop := by
  have hMark
      {token : Token}
      (hKind : token.kind = .eof) :
      token.kind.isMark = true := by
    simp [Token.Kind.isMark, hKind]
  exact
    ⟨fun token hCurrent =>
        hMark (hEnds.isEnd.kind_eq hCurrent),
      fun token hCurrent =>
        hMark (hEnds.other_kind_eq token hCurrent)⟩

end EndsAlike

namespace Abreast

theorem of_parallel
    {stream other : TokenStream}
    (hStreams :
      TokenStream.Parallel stop otherStop shared stream
        other)
    (hKind : ∀ token ∈ shared, token.kind ≠ .eof) :
    Abreast change stop otherStop shared
      (State.ofStream stream) (State.ofStream other) :=
  ⟨hStreams, hKind, (Log.translate_empty change).symm⟩

/- States that are abreast are finished together. -/
theorem isFinished_eq
    (h : Abreast change stop otherStop shared state other)
    (hEnds : EndsAlike change stop otherStop) :
    other.isFinished = state.isFinished := by
  have hStreams := h.streams
  cases shared with
  | nil =>
      have hStop := hEnds.isEnd
      have hOther := hEnds.other_kind_eq
      rw [← hStreams.eq_stops.1] at hStop
      rw [← hStreams.eq_stops.2] at hOther
      rw [isFinished_of_isEnd hStop,
        isFinished_of_kind hOther]
  | cons first later =>
      unfold State.isFinished
      rw [hStreams.current_cons.1, hStreams.current_cons.2]

/- They are finished at their stops only. -/
theorem eq_stops
    (h : Abreast change stop otherStop shared state other)
    (hFinished : state.isFinished = true) :
    state.stream = stop ∧ other.stream = otherStop := by
  have hStreams := h.streams
  cases shared with
  | nil => exact hStreams.eq_stops
  | cons first later =>
      have hNot := h.kind_ne_eof first (List.mem_cons_self ..)
      simp [State.isFinished, hStreams.current_cons.1, hNot]
        at hFinished

/-
  What comes after an attempt, if that is known as long as
  the states are abreast: behind the stop of the first
  stream there is nothing more to do.
-/
theorem crossing_of_attempt
    {next otherNext final : State}
    {outcome : Outcome Diagnostic Stmt}
    {result : Except Fault Program}
    (h : Abreast change stop otherStop shared state other)
    (hEnds : EndsAlike change stop otherStop)
    (hAttempt : statement state = (outcome, after))
    (hNext : next.stream = after.advance.stream)
    (hStreams :
      TokenStream.BeforeOrBehind stop otherStop next.stream
        otherNext.stream)
    (hLog : otherNext.log = next.log.translate change)
    (hCourse : Course next result final)
    (hAbreast :
      ∀ {left : List Token},
        Abreast change stop otherStop left next otherNext →
          Crossing (Translated change) stop otherStop
            otherNext result final) :
    Crossing (Translated change) stop otherStop otherNext
      result final := by
  rcases hStreams with ⟨left, hLeft⟩ | ⟨hBehind, hOther⟩
  · have hRest : next.stream.rest <:+ state.stream.rest := by
      rw [hNext]
      exact
        ((later_of_statement hAttempt).trans
          (TokenStream.later_advance _)).suffix
    have hSuffix : left <:+ shared :=
      h.streams.suffix hLeft hRest
    have hKind : ∀ token ∈ left, token.kind ≠ .eof := by
      intro token hMem
      exact h.kind_ne_eof token (hSuffix.subset hMem)
    exact hAbreast ⟨hLeft, hKind, hLog⟩
  · have hFinished : next.isFinished = true :=
      isFinished_of_isEnd
        (hEnds.isEnd.of_later hBehind.later)
    have hProgram := hCourse.program_eq
    rw [program_of_finished hFinished] at hProgram
    cases hProgram
    exact .of_behind hBehind hOther hLog

/- A statement that is done comes before what is behind it. -/
theorem crossing_of_done
    {final : State}
    {stmt : Stmt}
    {result : Except Fault Program}
    (h : Abreast change stop otherStop shared state other)
    (hEnds : EndsAlike change stop otherStop)
    (hUnfinished : state.isFinished = false)
    (hAttempt : statement state = (.done stmt, after))
    (hCourse : Course after.advance result final)
    (hAbreast :
      ∀ {left : List Token} {next : State},
        Abreast change stop otherStop left after.advance
            next →
          Crossing (Translated change) stop otherStop next
            result final) :
    Crossing (Translated change) stop otherStop other
      (result.map (stmt :: ·)) final := by
  rcases parallel_of_done hEnds.isStop.1
      hEnds.isStop.2 h.streams hAttempt with
    ⟨middle, otherMiddle, left, hMiddle, hAfter, hOther⟩
  rw [← h.isFinished_eq hEnds] at hUnfinished
  have hStreams :
      TokenStream.BeforeOrBehind stop otherStop
        after.advance.stream
        (stmt.leave
          ⟨otherMiddle, other.log⟩).advance.stream := by
    have hKind : Token.Kind.semicolon.isEof = false := rfl
    rcases hEnds.currentIs_eq_false hKind with
      ⟨hStop, hOtherStop⟩
    rw [hAfter]
    exact
      stmt.beforeOrBehind_leave hMiddle
        (hOtherStop.trans hStop.symm) _ _
  have hLog :
      (stmt.leave ⟨otherMiddle, other.log⟩).log =
        after.log.translate change := by
    rw [hAfter, stmt.log_leave, stmt.log_leave, h.log_eq]
  have hNext :=
    h.crossing_of_attempt hEnds hAttempt rfl hStreams
      hLog hCourse hAbreast
  exact hNext.cons (program_of_done hUnfinished hOther)

/- An attempt that fails gives nothing. -/
theorem crossing_of_failed
    {final : State}
    {raised : Diagnostic}
    {result : Except Fault Program}
    (h : Abreast change stop otherStop shared state other)
    (hEnds : EndsAlike change stop otherStop)
    (hUnfinished : state.isFinished = false)
    (hAttempt : statement state = (.failed raised, after))
    (hCourse :
      Course (after.record raised).advance result final)
    (hAbreast :
      ∀ {left : List Token} {next : State},
        Abreast change stop otherStop left
            (after.record raised).advance next →
          Crossing (Translated change) stop otherStop next
            result final) :
    Crossing (Translated change) stop otherStop other result
      final := by
  rcases parallel_of_failed hEnds.isStop.1
      hEnds.isStop.2 h.streams hAttempt with
    ⟨otherRaised, otherAfter, hOther, hTogether, hErrors⟩
  rcases hErrors change hEnds.translates h.log_eq with
    ⟨hRaised, hAfterLog⟩
  rw [← h.isFinished_eq hEnds] at hUnfinished
  have hStreams :
      TokenStream.BeforeOrBehind stop otherStop
        (after.record raised).advance.stream
        (otherAfter.record otherRaised).advance.stream :=
    hTogether.beforeOrBehind
  have hLog :
      (otherAfter.record otherRaised).advance.log =
        (after.record raised).advance.log.translate
          change := by
    simp [State.advance, State.record, hAfterLog, hRaised]
  have hStream :
      (after.record raised).advance.stream =
        after.advance.stream := rfl
  have hNext :=
    h.crossing_of_attempt hEnds hAttempt hStream hStreams
      hLog hCourse hAbreast
  exact hNext.of_eq (program_of_failed hUnfinished hOther)

end Abreast

/-
  Parses in two states that are abreast. Along the course in
  the first state, the attempts in the other are the same
  until an end token is passed.
-/
theorem Course.crossing
    {final : State}
    {result : Except Fault Program}
    (hCourse : Course state result final)
    (hEnds : EndsAlike change stop otherStop)
    (h : Abreast change stop otherStop shared state other) :
    Crossing (Translated change) stop otherStop other result
      final := by
  induction hCourse generalizing shared other with
  | finished hFinished =>
      have hStreams := h.eq_stops hFinished
      rw [← h.isFinished_eq hEnds] at hFinished
      exact
        .stops (program_of_finished hFinished) h.log_eq
          hStreams.1
  | done hUnfinished hAttempt hLater ih =>
      exact
        h.crossing_of_done hEnds hUnfinished hAttempt
          hLater ih
  | doneFatal hUnfinished hAttempt hLater ih =>
      exact
        h.crossing_of_done hEnds hUnfinished hAttempt
          hLater ih
  | failed hUnfinished hAttempt hLater ih =>
      exact
        h.crossing_of_failed hEnds hUnfinished hAttempt
          hLater ih
  | fatal hUnfinished hAttempt =>
      rcases parallel_of_fatal hEnds.isStop.1
          hEnds.isStop.2 h.streams hAttempt with
        ⟨otherAfter, hOther, hAfterLog, hOtherLog⟩
      rw [← h.isFinished_eq hEnds] at hUnfinished
      have hLog := hOtherLog.trans h.log_eq
      rw [← hAfterLog] at hLog
      exact .fatal (program_of_fatal hUnfinished hOther) hLog

end Courses

end Parse

end LetLang

import LetLang.Parse.Statement

/-
  Parsing whole programs.

  Statements are attempted one after the other until the
  current place holds the end token or none. An attempt that
  fails is recorded and skipped. After every attempt one
  place is passed, whatever it holds; so a gap there goes
  unnoticed. A fault ends the parse at once.

  Key definitions include:
    * `Parse.State.isFinished`
    * `Parse.program`
    * `Parse.Run`
    * `Parse.run`

  Main declarations:
    * `Parse.program_of_finished`
    * `Parse.program_of_done`
    * `Parse.program_of_failed`
    * `Parse.program_of_fatal`
-/

namespace LetLang

namespace Parse

------------------------------------------------------------
-- The Loop
------------------------------------------------------------

/- Whether there is no statement to attempt any more. -/
def State.isFinished
    (state : State) : Bool :=
  state.stream.current.all (fun token => token.kind == .eof)

theorem length_pos_of_not_isFinished
    {state : State}
    (h : state.isFinished = false) :
    0 < state.stream.rest.length := by
  unfold State.isFinished TokenStream.current
    TokenStream.beyond at h
  cases hRest : state.stream.rest with
  | nil =>
      rw [hRest] at h
      dsimp only at h
      split at h <;> simp [Token.eof] at h
  | cons token rest => simp

/- Each attempt brings the end nearer. -/
theorem length_attempt_lt
    {state : State}
    (h : state.isFinished = false) :
    (statement state).2.advance.stream.rest.length <
      state.stream.rest.length := by
  have hPos := length_pos_of_not_isFinished h
  have hLe := length_statement_le state
  simp only [State.advance, TokenStream.advance,
    List.length_tail]
  omega

/-
  The statements that parsed, or the fault that ended the
  parse, with the state after it.
-/
def program
    (state : State) : Except Fault Program × State :=
  if _hFinished : state.isFinished then
    (.ok [], state)
  else
    let attempt := statement state
    match attempt.1 with
    | .done stmt =>
        let later := program attempt.2.advance
        (later.1.map (stmt :: ·), later.2)
    | .failed raised =>
        program (attempt.2.record raised).advance
    | .fatal fault => (.error fault, attempt.2)
termination_by state.stream.rest.length
decreasing_by
  all_goals
    exact length_attempt_lt (Bool.eq_false_iff.mpr _hFinished)

------------------------------------------------------------
-- Equations
------------------------------------------------------------

/- At the end there are no statements. -/
theorem program_of_finished
    {state : State}
    (h : state.isFinished = true) :
    program state = (.ok [], state) := by
  rw [program, dif_pos h]

/- A statement comes before those that follow it. -/
theorem program_of_done
    {state after : State}
    {stmt : Stmt}
    (h : state.isFinished = false)
    (hAttempt : statement state = (.done stmt, after)) :
    program state =
      ((program after.advance).1.map (stmt :: ·),
        (program after.advance).2) := by
  rw [program, dif_neg (Bool.eq_false_iff.mp h)]
  simp only [hAttempt]

/- A failed statement is recorded and left out. -/
theorem program_of_failed
    {state after : State}
    {raised : Diagnostic}
    (h : state.isFinished = false)
    (hAttempt : statement state = (.failed raised, after)) :
    program state =
      program (after.record raised).advance := by
  rw [program, dif_neg (Bool.eq_false_iff.mp h)]
  simp only [hAttempt]

/- A fault ends the parse where it arose. -/
theorem program_of_fatal
    {state after : State}
    {fault : Fault}
    (h : state.isFinished = false)
    (hAttempt : statement state = (.fatal fault, after)) :
    program state = (.error fault, after) := by
  rw [program, dif_neg (Bool.eq_false_iff.mp h)]
  simp only [hAttempt]

------------------------------------------------------------
-- Whole Sources
------------------------------------------------------------

/-
  A finished parse: its program or fault, the stream where
  it stopped, and its log.
-/
structure Run where
  program : Except Fault Program
  final : State

/- Parse a stream from its start. -/
def run
    (stream : TokenStream) : Run :=
  let (program, final) := program (State.ofStream stream)
  ⟨program, final⟩

/- Parse a source text. -/
def source
    (text : String) : Run :=
  run (TokenStream.ofSource text)

end Parse

end LetLang

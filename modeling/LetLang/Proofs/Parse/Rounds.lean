import LetLang.Proofs.Parse.Progress

/-
  Rounds: the attempts at statements that a parse makes, as
  a list.

  A round keeps the state in which its attempt is made, the
  statement that it gives, if any, and the state in which
  the next attempt is made. A parse that ends with a program
  is a list of rounds, of which each starts where the one
  before it has led. A parse that ends with a fault is such
  a list and one attempt more, which makes no round.

  Key definitions include:
    * `Parse.Round`
    * `Parse.Round.recorded`
    * `Parse.Rounds`
    * `Parse.Leads`

  Main declarations:
    * `Parse.Rounds.leads`
    * `Parse.Course.exists_rounds`
    * `Parse.Course.exists_leads`
    * `Parse.exists_rounds_of_run`
-/

namespace LetLang

namespace Parse

/-
  An attempt at a statement. It gives a statement or fails;
  a fault leads to no other attempt and makes no round.
-/
structure Round where
  before : State
  stmt? : Option Stmt
  next : State

/- The errors that a round adds to the log. -/
def Round.recorded
    (round : Round) : List Diagnostic :=
  round.next.log.toList.drop round.before.log.size

/- What a round adds is known from the log behind it. -/
theorem Round.recorded_eq
    {round : Round}
    {errors : List Diagnostic}
    (hLog :
      round.next.log.toList =
        round.before.log.toList ++ errors) :
    round.recorded = errors := by
  unfold recorded
  rw [hLog, ← Array.length_toList]
  exact List.drop_left

/-
  From a state the rounds lead to a final state, in which
  there is nothing more to attempt. What each round keeps is
  what the parser does.
-/
inductive Rounds :
    State → List Round → State → Prop where
  | finished
      {state : State}
      (hFinished : state.isFinished = true) :
      Rounds state [] state
  | done
      {state after final : State}
      {stmt : Stmt}
      {rounds : List Round}
      (hUnfinished : state.isFinished = false)
      (hAttempt : statement state = (.done stmt, after))
      (hLater : Rounds after.advance rounds final) :
      Rounds state
        (⟨state, some stmt, after.advance⟩ :: rounds) final
  | failed
      {state after final : State}
      {raised : Diagnostic}
      {rounds : List Round}
      (hUnfinished : state.isFinished = false)
      (hAttempt : statement state = (.failed raised, after))
      (hLater :
        Rounds (after.record raised).advance rounds final) :
      Rounds state
        (⟨state, none, (after.record raised).advance⟩
          :: rounds) final

/-
  From a state the rounds lead to another one, from which
  there may be more to attempt.
-/
inductive Leads :
    State → List Round → State → Prop where
  | nil
      {state : State} :
      Leads state [] state
  | done
      {state after last : State}
      {stmt : Stmt}
      {rounds : List Round}
      (hUnfinished : state.isFinished = false)
      (hAttempt : statement state = (.done stmt, after))
      (hLater : Leads after.advance rounds last) :
      Leads state
        (⟨state, some stmt, after.advance⟩ :: rounds) last
  | failed
      {state after last : State}
      {raised : Diagnostic}
      {rounds : List Round}
      (hUnfinished : state.isFinished = false)
      (hAttempt : statement state = (.failed raised, after))
      (hLater :
        Leads (after.record raised).advance rounds last) :
      Leads state
        (⟨state, none, (after.record raised).advance⟩
          :: rounds) last

/- The rounds of a parse lead to where it is finished. -/
theorem Rounds.leads
    {state final : State}
    {rounds : List Round}
    (hRounds : Rounds state rounds final) :
    Leads state rounds final := by
  induction hRounds with
  | finished hFinished => exact .nil
  | done hUnfinished hAttempt hLater ih =>
      exact .done hUnfinished hAttempt ih
  | failed hUnfinished hAttempt hLater ih =>
      exact .failed hUnfinished hAttempt ih

theorem Leads.later
    {state last : State}
    {rounds : List Round}
    (hLeads : Leads state rounds last) :
    state.stream.Later last.stream := by
  induction hLeads with
  | nil => exact TokenStream.Later.refl _
  | done hUnfinished hAttempt hLater ih =>
      exact (later_of_statement hAttempt).trans ih.of_advance
  | failed hUnfinished hAttempt hLater ih =>
      exact (later_of_statement hAttempt).trans ih.of_advance

/- A parse that ends with a program consists of rounds. -/
theorem Course.exists_rounds
    {state final : State}
    {result : Except Fault Program}
    (hCourse : Course state result final)
    {program : Program}
    (hResult : result = .ok program) :
    ∃ rounds,
      Rounds state rounds final ∧
        program = rounds.filterMap Round.stmt? := by
  induction hCourse generalizing program with
  | finished hFinished =>
      cases hResult
      exact ⟨[], .finished hFinished, rfl⟩
  | done hUnfinished hAttempt hLater ih =>
      cases hResult
      rcases ih rfl with ⟨rounds, hRounds, rfl⟩
      exact ⟨_, .done hUnfinished hAttempt hRounds, rfl⟩
  | doneFatal hUnfinished hAttempt hLater ih =>
      cases hResult
  | failed hUnfinished hAttempt hLater ih =>
      rcases ih hResult with ⟨rounds, hRounds, rfl⟩
      exact ⟨_, .failed hUnfinished hAttempt hRounds, rfl⟩
  | fatal hUnfinished hAttempt => cases hResult

/-
  A parse that ends with a fault consists of rounds and an
  attempt that ends with it.
-/
theorem Course.exists_leads
    {state final : State}
    {result : Except Fault Program}
    (hCourse : Course state result final)
    {fault : Fault}
    (hResult : result = .error fault) :
    ∃ rounds last,
      Leads state rounds last ∧
        statement last = (.fatal fault, final) := by
  induction hCourse with
  | finished hFinished => cases hResult
  | done hUnfinished hAttempt hLater ih => cases hResult
  | doneFatal hUnfinished hAttempt hLater ih =>
      rcases ih hResult with ⟨rounds, last, hLeads, hFatal⟩
      exact
        ⟨_, last, .done hUnfinished hAttempt hLeads, hFatal⟩
  | failed hUnfinished hAttempt hLater ih =>
      rcases ih hResult with ⟨rounds, last, hLeads, hFatal⟩
      exact
        ⟨_, last, .failed hUnfinished hAttempt hLeads,
          hFatal⟩
  | @fatal state after found hUnfinished hAttempt =>
      cases hResult
      exact ⟨[], state, .nil, hAttempt⟩

/- A whole stream that gives a program consists of rounds. -/
theorem exists_rounds_of_run
    {stream : TokenStream}
    {program : Program}
    (hProgram : (run stream).program = .ok program) :
    ∃ rounds,
      Rounds (State.ofStream stream) rounds
          (run stream).final ∧
        program = rounds.filterMap Round.stmt? :=
  (course_program (State.ofStream stream)).exists_rounds
    hProgram

end Parse

end LetLang

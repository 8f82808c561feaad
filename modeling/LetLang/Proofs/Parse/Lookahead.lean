import LetLang.Parse.Session
import LetLang.Proofs.Parse.Window

/-
  Lookahead: what stays true of a parse whichever of its
  rules are called, and in whatever order.

  A call may fail half-way, or be made where its rule should
  not be used; still it does nothing but pass places and add
  errors to the end of the log. So the two slots of a parse
  are always those of the window that was opened on its
  source, shifted some times. They hold neighbours in the
  source, and no call moves back in it or takes anything out
  of the log.

  Key definitions include:
    * `Parse.State.Onward`
    * `TokenStream.ShowsFrom`
    * `Parse.KeepsPace`

  Main declarations:
    * `Parse.State.onward_answer`
    * `Parse.State.keepsPace_answers`
    * `Parse.answers_keepPace`
-/

namespace LetLang

namespace Parse

------------------------------------------------------------
-- States that Come Later
------------------------------------------------------------

/-
  From one state to another places have been passed and
  errors have been recorded, and nothing else was done.
-/
structure State.Onward
    (state after : State) : Prop where
  stream_later : state.stream.Later after.stream
  log_extends : after.log.Extends state.log

namespace State

namespace Onward

theorem refl
    (state : State) :
    state.Onward state :=
  ⟨TokenStream.Later.refl _, Log.Extends.refl _⟩

theorem trans
    {state middle after : State}
    (hFirst : state.Onward middle)
    (hLater : middle.Onward after) :
    state.Onward after :=
  ⟨hFirst.stream_later.trans hLater.stream_later,
    hLater.log_extends.trans hFirst.log_extends⟩

end Onward

theorem onward_advance
    (state : State) :
    state.Onward state.advance :=
  ⟨TokenStream.later_advance _, Log.Extends.refl _⟩

theorem onward_record
    (state : State)
    (diagnostic : Diagnostic) :
    state.Onward (state.record diagnostic) :=
  ⟨TokenStream.Later.refl _, Log.extends_push _ _⟩

/- An attempt that leaves the stream later goes on. -/
theorem onward_settle
    {state : State}
    {attempted : Attempt × TokenStream}
    (hLater : state.stream.Later attempted.2) :
    state.Onward (state.settle attempted).2 := by
  rcases attempted with ⟨expr | failure | fault, after⟩
  · exact ⟨hLater, Log.Extends.refl _⟩
  · exact ⟨hLater, failure.extends_raise state.log⟩
  · exact ⟨hLater, Log.Extends.refl _⟩

theorem onward_task
    (state : State)
    (task : Task) :
    state.Onward (task.reply state).2 := by
  rw [task.reply_eq_settle]
  exact onward_settle (traced task state.stream).later

theorem onward_raising {α : Type}
    (error : ParseError)
    (reply : Reply α) :
    reply.2.Onward (Reply.raising error reply).2 := by
  rcases reply with ⟨result | raised | fault, after⟩
  · exact Onward.refl after
  · exact after.onward_record raised
  · exact Onward.refl after

end State

------------------------------------------------------------
-- Rules
------------------------------------------------------------

namespace State

variable
  (state : State)

/- An expression goes on, also if it fails half-way. -/
theorem onward_expression
    (floor : Level) :
    state.Onward (state.expression floor).2 :=
  state.onward_task (.expression floor)

theorem onward_value
    (form : StatementForm)
    (make : Expr → Stmt) :
    state.Onward (value form make state).2 :=
  (state.onward_expression .lowest).trans
    (onward_raising (.statementFailed form)
      (state.expression .lowest))

/- A binding does, also where it lacks something. -/
theorem onward_binding :
    state.Onward (binding state).2 := by
  have hNamed : state.Onward state.advance.advance :=
    state.onward_advance.trans state.advance.onward_advance
  unfold binding
  split
  · exact state.onward_record _
  · split
    · split
      · exact Onward.refl state
      · dsimp only
        split
        · have hSigned :=
            hNamed.trans state.advance.advance.onward_advance
          exact hSigned.trans (onward_value _ _ _)
        · exact hNamed.trans (onward_record _ _)
    · exact state.onward_record _

theorem onward_result :
    state.Onward (result state).2 := by
  unfold result
  split
  · exact Onward.refl state
  · exact state.onward_advance.trans (onward_value _ _ _)

theorem onward_passBeforeSemicolon :
    state.Onward (passBeforeSemicolon state) := by
  unfold passBeforeSemicolon
  split
  · exact state.onward_advance
  · exact Onward.refl state

theorem onward_bareExpression :
    state.Onward (bareExpression state).2 := by
  have hValue := state.onward_value .expression
    (fun expr => .exprStmt expr.first expr)
  unfold bareExpression
  split
  · rename_i after hReply
    rw [hReply] at hValue
    exact hValue.trans after.onward_passBeforeSemicolon
  · exact hValue

theorem onward_statement :
    state.Onward (statement state).2 :=
  ⟨(statement_trace state).later, extends_statement state⟩

theorem onward_program :
    state.Onward (program state).2 := by
  have hCourse := course_program state
  exact ⟨hCourse.later, hCourse.extends⟩

theorem onward_takeCurrent :
    state.Onward state.takeCurrent.2 := by
  unfold takeCurrent
  split <;> exact Onward.refl state

theorem onward_wholeProgram :
    state.Onward state.wholeProgram.2 := by
  have hProgram := state.onward_program
  unfold wholeProgram
  split
  · rename_i hResult
    rw [hResult] at hProgram
    exact hProgram
  · rename_i hResult
    rw [hResult] at hProgram
    exact hProgram

/- Every call goes on, with any arguments. -/
theorem onward_answer
    (call : Call) :
    state.Onward (state.answer call).2 := by
  cases call with
  | nextToken => exact state.onward_advance
  | takeCurrent => exact state.onward_takeCurrent
  | currentIs kind => exact Onward.refl state
  | peekIs kind => exact Onward.refl state
  | recordUnexpected expected found =>
      exact state.onward_record _
  | bindsAbove floor => exact Onward.refl state
  | program => exact state.onward_wholeProgram
  | statement => exact state.onward_statement
  | binding => exact state.onward_binding
  | result => exact state.onward_result
  | bareExpression => exact state.onward_bareExpression
  | expression floor => exact state.onward_expression floor
  | operand token => exact state.onward_task (.operand token)
  | constant token => exact Onward.refl state
  | operation left operator floor =>
      exact (state.onward_expression floor).trans
        (onward_raising (.operandFailed .binary)
          (state.expression floor))
  | faulty fault => exact Onward.refl state

end State

end Parse

------------------------------------------------------------
-- Visible Places
------------------------------------------------------------

namespace TokenStream

/-
  The two places of a stream that are visible are a place of
  a source and the one behind it. A source is given by what
  stands at each of its places.
-/
structure ShowsFrom
    (stream : TokenStream)
    (source : Nat → Option Token)
    (i : Nat) : Prop where
  current_eq : stream.current = source i
  peek_eq : stream.peek = source (i + 1)

/- A stream shows what a window shows that shows it. -/
theorem showsFrom_of_window
    {stream : TokenStream}
    {window : Window}
    {source : Nat → Option Token}
    {i : Nat}
    (hShows : window.Shows stream)
    (hFrom : window.ShowsFrom source i) :
    stream.ShowsFrom source i := by
  constructor
  · rw [← hShows.current_eq, hFrom.current_eq]
  · rw [← hShows.peek_eq, hFrom.peek_eq]

end TokenStream

------------------------------------------------------------
-- Sessions
------------------------------------------------------------

namespace Parse

open TokenStream

/-
  Calls that are made one after the other, from a place of a
  source and with some log on, each have a reply. After each
  reply the slots are those of a window that was opened at
  the start of the source, shifted to a place, so this place
  and the one behind it are visible. It is no earlier place
  than before, nothing is visible behind the end, and the
  log goes on where it ended before.
-/
inductive KeepsPace
    (source : Nat → Option Token)
    (window : Window) :
    Nat → Log → List Call → List (Reply Answer) →
      Prop where
  | nil
      {i : Nat}
      {log : Log} :
      KeepsPace source window i log [] []
  | cons
      {i j : Nat}
      {log : Log}
      {call : Call}
      {calls : List Call}
      {reply : Reply Answer}
      {replies : List (Reply Answer)}
      (hPlace : i ≤ j)
      (hWindow : (window.shifts j).Shows reply.2.stream)
      (hShows : reply.2.stream.ShowsFrom source j)
      (hEnd :
        reply.2.stream.current = none →
          reply.2.stream.peek = none)
      (hLog : reply.2.log.Extends log)
      (hLater :
        KeepsPace source window j reply.2.log calls
          replies) :
      KeepsPace source window i log (call :: calls)
        (reply :: replies)

/-
  A session keeps pace with its source, if the source has
  nothing behind its end. The induction is on the calls; it
  carries that what is ahead is the stream from a place on.
-/
theorem State.keepsPace_answers
    {stream : TokenStream}
    {source : Nat → Option Token}
    {window : Window}
    (hWindow : window.Shows stream)
    (hFrom : window.ShowsFrom source 0)
    (hEnd : ∀ i, source i = none → source (i + 1) = none)
    {state : State}
    {i : Nat}
    (hState : state.stream = stream.skip i)
    (calls : List Call) :
    KeepsPace source window i state.log calls
      (state.answers calls) := by
  induction calls generalizing state i with
  | nil => exact .nil
  | cons call calls ih =>
      have hOnward := state.onward_answer call
      rcases hOnward.stream_later with ⟨n, hLater⟩
      rw [hState, skip_skip] at hLater
      have hShifted :
          (window.shifts (i + n)).Shows
            (state.answer call).2.stream := by
        rw [hLater]
        exact hWindow.shifts (i + n)
      have hShiftedFrom :
          (window.shifts (i + n)).ShowsFrom source
            (i + n) := by
        have hShifts := hFrom.shifts (i + n)
        rw [Nat.zero_add] at hShifts
        exact hShifts
      have hShows :=
        showsFrom_of_window hShifted hShiftedFrom
      refine
        .cons (Nat.le_add_right i n) hShifted hShows ?_
          hOnward.log_extends (ih hLater)
      intro hNone
      rw [hShows.peek_eq]
      apply hEnd
      rw [← hShows.current_eq]
      exact hNone

/-
  Any calls on a list of tokens, or on what is ahead of a
  cursor, keep pace with the source from its start: at the
  places of a list stand its tokens and nothing behind them,
  at those of a cursor the tokens that it reads, one after
  the other and without end. The window is opened on the
  list or on the cursor.
-/
theorem answers_keepPace
    (calls : List Call) :
    (∀ tokens : List Token,
      let window :=
        Window.ofFeed (.ofPlaces (tokens.map some))
      window.Shows (ofTokens tokens) ∧
        (ofTokens tokens).ShowsFrom
          (fun i => tokens[i]?) 0 ∧
        KeepsPace (fun i => tokens[i]?) window 0 #[] calls
          ((State.ofStream (ofTokens tokens)).answers
            calls)) ∧
      ∀ cursor : Scan.Cursor,
        let window := Window.ofFeed (.ofCursor cursor)
        window.Shows (ofCursor cursor) ∧
          (ofCursor cursor).ShowsFrom
            (fun i => some (cursor.skip i).next.1) 0 ∧
          KeepsPace (fun i => some (cursor.skip i).next.1)
            window 0 #[] calls
            ((State.ofStream (ofCursor cursor)).answers
              calls) := by
  constructor
  · intro tokens window
    have hShows : window.Shows (ofTokens tokens) :=
      Window.shows_ofPlaces (tokens.map some)
    have hFrom :
        window.ShowsFrom (fun i => tokens[i]?) 0 := by
      apply Window.showsFrom_ofFeed
      intro i
      rw [← get?_ofTokens]
      exact Feed.get?_ofPlaces (tokens.map some) i
    have hEnd
        (i : Nat)
        (hNone : tokens[i]? = none) :
        tokens[i + 1]? = none := by
      rw [List.getElem?_eq_none_iff] at hNone ⊢
      omega
    have hState :
        (State.ofStream (ofTokens tokens)).stream =
          (ofTokens tokens).skip 0 :=
      rfl
    exact
      ⟨hShows, showsFrom_of_window hShows hFrom,
        State.keepsPace_answers hShows hFrom hEnd hState
          calls⟩
  · intro cursor window
    have hShows : window.Shows (ofCursor cursor) :=
      Window.shows_ofCursor cursor
    have hFrom :
        window.ShowsFrom
          (fun i => some (cursor.skip i).next.1) 0 :=
      Window.showsFrom_ofFeed (Feed.get?_ofCursor cursor)
    have hState :
        (State.ofStream (ofCursor cursor)).stream =
          (ofCursor cursor).skip 0 :=
      rfl
    exact
      ⟨hShows, showsFrom_of_window hShows hFrom,
        State.keepsPace_answers hShows hFrom
          (fun i hNone => nomatch hNone) hState calls⟩

end Parse

end LetLang

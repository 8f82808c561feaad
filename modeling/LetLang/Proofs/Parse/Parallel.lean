import LetLang.Proofs.Parse.StatementTrace
import LetLang.Proofs.Parse.Trace

/-
  Parallel streams: two streams with the same tokens before
  their stops.

  At a stop there is no token, or a mark. No rule asks for a
  mark, and a mark is no operand and no operator. So two
  parallel streams are treated alike up to their stops, and
  what comes to its stop on one stream comes to its stop on
  the other: there an expression ends, or it fails for the
  want of an operand and passes the mark, if there is one.

  Key definitions include:
    * `TokenStream.IsStop`
    * `TokenStream.obstacle`
    * `TokenStream.past`
    * `TokenStream.Parallel`
    * `TokenStream.Together`
    * `TokenStream.Meets`

  Main declarations:
    * `TokenStream.Parallel.exists_reads`
    * `Parse.Trace.parallel`
-/

------------------------------------------------------------
-- Stops
------------------------------------------------------------

namespace LetLang

namespace TokenStream

/- No token is current, or a mark is. -/
def IsStop
    (stream : TokenStream) : Prop :=
  ∀ token,
    stream.current = some token → token.kind.isMark = true

/- What is wrong where an operand should start. -/
def obstacle
    (stream : TokenStream) : Obstacle :=
  match stream.current with
  | none => .missing
  | some token => .unusable token

/- The stream after its obstacle, which is passed if it can. -/
def past
    (stream : TokenStream) : TokenStream :=
  match stream.current with
  | none => stream
  | some _ => stream.advance

namespace IsStop

variable
  {stop : TokenStream}

theorem of_current
    {mark : Token}
    (hCurrent : stop.current = some mark)
    (hMark : mark.kind.isMark = true) :
    stop.IsStop := by
  intro token hToken
  rw [hCurrent] at hToken
  cases hToken
  exact hMark

theorem currentIs_eq_false
    (hStop : stop.IsStop)
    {kind : Token.Kind}
    (hKind : kind.isMark = false) :
    stop.currentIs kind = false := by
  apply Bool.eq_false_iff.mpr
  intro hIs
  rcases exists_current_of_currentIs hIs with
    ⟨token, hCurrent, hSame⟩
  have hMark := hStop token hCurrent
  rw [hSame, hKind] at hMark
  cases hMark

theorem bindsAbove_eq_false
    (hStop : stop.IsStop)
    (floor : Level) :
    stop.bindsAbove floor = false := by
  unfold bindsAbove Token.Kind.bindsAbove
  cases hCurrent : stop.current with
  | none => rfl
  | some token =>
      have hLevel : token.kind.level? = none := by
        cases hSome : token.kind.level? with
        | none => rfl
        | some level =>
            have hNot := Parse.isMark_of_level? hSome
            rw [hStop token hCurrent] at hNot
            cases hNot
      simp [hLevel]

end IsStop

end TokenStream

/- An expression fails where it starts at a stop. -/
theorem Parse.trace_of_isStop
    {stop : TokenStream}
    (hStop : stop.IsStop)
    (floor : Level) :
    Trace (.expression floor) stop
      (.failed ⟨stop.obstacle, []⟩) stop.past := by
  unfold TokenStream.obstacle TokenStream.past
  cases hCurrent : stop.current with
  | none => exact .missing hCurrent
  | some token =>
      exact trace_of_isMark hCurrent (hStop token hCurrent)
        floor

------------------------------------------------------------
-- Parallel Streams
------------------------------------------------------------

namespace TokenStream

/- Both streams come to their stops by the same tokens. -/
structure Parallel
    (stop otherStop : TokenStream)
    (shared : List Token)
    (stream other : TokenStream) : Prop where
  reads : stream.Reads shared stop
  otherReads : other.Reads shared otherStop

namespace Parallel

variable
  {stop otherStop stream other : TokenStream}
  {shared : List Token}
  {token : Token}

theorem current_cons
    (h :
      Parallel stop otherStop (token :: shared) stream
        other) :
    stream.current = some token ∧
      other.current = some token :=
  ⟨h.reads.current_eq, h.otherReads.current_eq⟩

theorem advance
    (h :
      Parallel stop otherStop (token :: shared) stream
        other) :
    Parallel stop otherStop shared stream.advance
      other.advance :=
  ⟨h.reads.advance, h.otherReads.advance⟩

/- Without tokens in between both streams are at stops. -/
theorem eq_stops
    (h : Parallel stop otherStop [] stream other) :
    stream = stop ∧ other = otherStop :=
  ⟨(Reads.refl stream).eq_of_reads h.reads,
    (Reads.refl other).eq_of_reads h.otherReads⟩

/- Without a current token both streams are at stops. -/
theorem eq_nil_of_current
    (h : Parallel stop otherStop shared stream other)
    (hCurrent : stream.current = none) :
    shared = [] := by
  cases shared with
  | nil => rfl
  | cons token shared =>
      rw [h.current_cons.1] at hCurrent
      cases hCurrent

/- A current token that is no mark is the same in both. -/
theorem exists_cons
    (h : Parallel stop otherStop shared stream other)
    (hStop : stop.IsStop)
    (hCurrent : stream.current = some token)
    (hKind : token.kind.isMark = false) :
    ∃ later, shared = token :: later := by
  cases shared with
  | nil =>
      rw [h.eq_stops.1] at hCurrent
      rw [hStop token hCurrent] at hKind
      cases hKind
  | cons first later =>
      rw [h.current_cons.1] at hCurrent
      cases hCurrent
      exact ⟨later, rfl⟩

/- So a token of such a kind can be passed on both streams. -/
theorem current_eq_of_kind
    {kind : Token.Kind}
    (h : Parallel stop otherStop shared stream other)
    (hStop : stop.IsStop)
    (hCurrent : stream.current = some token)
    (hKind : token.kind = kind)
    (hMark : kind.isMark = false) :
    other.current = some token ∧
      ∃ later,
        Parallel stop otherStop later stream.advance
          other.advance := by
  rw [← hKind] at hMark
  rcases h.exists_cons hStop hCurrent hMark with
    ⟨later, rfl⟩
  exact ⟨h.current_cons.2, later, h.advance⟩

theorem currentIs_eq
    (h : Parallel stop otherStop shared stream other)
    (hStop : stop.IsStop)
    (hOther : otherStop.IsStop)
    {kind : Token.Kind}
    (hKind : kind.isMark = false) :
    other.currentIs kind = stream.currentIs kind := by
  cases shared with
  | nil =>
      rw [h.eq_stops.1, h.eq_stops.2,
        hStop.currentIs_eq_false hKind,
        hOther.currentIs_eq_false hKind]
  | cons token shared =>
      rw [currentIs_of_current h.current_cons.1,
        currentIs_of_current h.current_cons.2]

theorem bindsAbove_eq
    (h : Parallel stop otherStop shared stream other)
    (hStop : stop.IsStop)
    (hOther : otherStop.IsStop)
    (floor : Level) :
    other.bindsAbove floor = stream.bindsAbove floor := by
  cases shared with
  | nil =>
      rw [h.eq_stops.1, h.eq_stops.2,
        hStop.bindsAbove_eq_false floor,
        hOther.bindsAbove_eq_false floor]
  | cons token shared =>
      simp [bindsAbove, h.current_cons.1, h.current_cons.2]

theorem suffix
    {after otherAfter : TokenStream}
    {left : List Token}
    (h : Parallel stop otherStop shared stream other)
    (hAfter : Parallel stop otherStop left after otherAfter)
    (hRest : after.rest <:+ stream.rest) :
    left <:+ shared := by
  rcases hRest with ⟨passed, hPassed⟩
  rw [hAfter.reads.rest_eq, h.reads.rest_eq,
    ← List.append_assoc] at hPassed
  rcases List.map_eq_append_iff.mp
      (List.append_cancel_right hPassed).symm with
    ⟨first, last, hShared, -, hLast⟩
  have hLeft : last = left := eq_of_map_some hLast
  exact ⟨first, by rw [hShared, hLeft]⟩

/- Tokens other than marks are read on both streams. -/
theorem exists_reads
    {middle : TokenStream}
    {own : List Token}
    (h : Parallel stop otherStop shared stream other)
    (hStop : stop.IsStop)
    (hReads : stream.Reads own middle)
    (hOwn : ∀ token ∈ own, token.kind.isMark = false) :
    ∃ otherMiddle left,
      other.Reads own otherMiddle ∧
        Parallel stop otherStop left middle otherMiddle := by
  induction own generalizing stream other shared with
  | nil =>
      rcases (Reads.refl stream).eq_of_reads hReads with rfl
      exact ⟨other, shared, Reads.refl other, h⟩
  | cons token own ih =>
      have hMark := hOwn token (List.mem_cons_self ..)
      rcases h.exists_cons hStop hReads.current_eq hMark with
        ⟨later, rfl⟩
      rcases ih h.advance hReads.advance
          (fun next hMem =>
            hOwn next (List.mem_cons_of_mem _ hMem)) with
        ⟨otherMiddle, left, hOther, hMiddle⟩
      have hKind : token.kind ≠ .eof := by
        intro hEof
        rw [hEof] at hMark
        cases hMark
      exact
        ⟨otherMiddle, left,
          (reads_of_current h.current_cons.2 hKind).cons
            hOther,
          hMiddle⟩

end Parallel

/-
  Both streams are before their stops or at them, or both
  are past what stands there.
-/
def Together
    (stop otherStop after otherAfter : TokenStream) : Prop :=
  (∃ left,
      Parallel stop otherStop left after otherAfter) ∨
    after = stop.past ∧ otherAfter = otherStop.past

/-
  Two attempts on parallel streams end alike. Before their
  stops the attempts are the same; at their stops they fail
  for what stands there, below the same operators.
-/
inductive Meets
    (stop otherStop after otherAfter : TokenStream) :
    Attempt → Attempt → Prop where
  | before
      {left : List Token}
      {attempt : Attempt}
      (hAfter :
        Parallel stop otherStop left after otherAfter) :
      Meets stop otherStop after otherAfter attempt attempt
  | behind
      {waiting : List OperatorForm}
      (hAfter : after = stop.past)
      (hOther : otherAfter = otherStop.past) :
      Meets stop otherStop after otherAfter
        (.failed ⟨stop.obstacle, waiting⟩)
        (.failed ⟨otherStop.obstacle, waiting⟩)

namespace Meets

variable
  {stop otherStop after otherAfter : TokenStream}
  {otherAttempt : Attempt}

theorem eq_done
    {expr : Expr}
    (h :
      Meets stop otherStop after otherAfter (.done expr)
        otherAttempt) :
    otherAttempt = .done expr ∧
      ∃ left,
        Parallel stop otherStop left after otherAfter := by
  cases h with
  | before hAfter => exact ⟨rfl, _, hAfter⟩

theorem exists_failed
    {failure : Failure}
    (h :
      Meets stop otherStop after otherAfter
        (.failed failure) otherAttempt) :
    ∃ otherFailure, otherAttempt = .failed otherFailure := by
  cases h with
  | before hAfter => exact ⟨failure, rfl⟩
  | behind hAfter hOther => exact ⟨_, rfl⟩

theorem under
    {failure otherFailure : Failure}
    (h :
      Meets stop otherStop after otherAfter
        (.failed failure) (.failed otherFailure))
    (form : OperatorForm) :
    Meets stop otherStop after otherAfter
      (.failed (failure.under form))
      (.failed (otherFailure.under form)) := by
  cases h with
  | before hAfter => exact .before hAfter
  | behind hAfter hOther => exact .behind hAfter hOther

theorem eq_fatal
    {fault : Fault}
    (h :
      Meets stop otherStop after otherAfter (.fatal fault)
        otherAttempt) :
    otherAttempt = .fatal fault := by
  cases h with
  | before hAfter => rfl

theorem together
    {attempt : Attempt}
    (h :
      Meets stop otherStop after otherAfter attempt
        otherAttempt) :
    Together stop otherStop after otherAfter := by
  cases h with
  | before hAfter => exact Or.inl ⟨_, hAfter⟩
  | behind hAfter hOther => exact Or.inr ⟨hAfter, hOther⟩

end Meets

end TokenStream

------------------------------------------------------------
-- Expressions
------------------------------------------------------------

namespace Parse

open TokenStream

/- At their stops both streams lack an operand. -/
theorem Trace.parallel_of_stops
    {stop otherStop : TokenStream}
    (hStop : stop.IsStop)
    (hOtherStop : otherStop.IsStop)
    {floor : Level}
    {stream after other : TokenStream}
    {failure : Failure}
    (hTrace :
      Trace (.expression floor) stream
        (.failed failure) after)
    (h : Parallel stop otherStop [] stream other) :
    ∃ otherAttempt otherAfter,
      Trace (.expression floor) other otherAttempt
          otherAfter ∧
        Meets stop otherStop after otherAfter
          (.failed failure) otherAttempt := by
  rcases h.eq_stops with ⟨rfl, rfl⟩
  have hResult := hTrace.result_eq
  rw [(trace_of_isStop hStop floor).result_eq] at hResult
  cases hResult
  exact
    ⟨_, _, trace_of_isStop hOtherStop floor,
      .behind rfl rfl⟩

/-
  A task ends alike on parallel streams. The induction is on
  the trace on the first stream, and builds the trace on the
  other one.
-/
theorem Trace.parallel
    {stop otherStop : TokenStream}
    (hStop : stop.IsStop)
    (hOtherStop : otherStop.IsStop)
    {task : Task}
    {stream after : TokenStream}
    {attempt : Attempt}
    (hTrace : Trace task stream attempt after)
    {shared : List Token}
    {other : TokenStream}
    (h : Parallel stop otherStop shared stream other) :
    ∃ otherAttempt otherAfter,
      Trace task other otherAttempt otherAfter ∧
        Meets stop otherStop after otherAfter attempt
          otherAttempt := by
  induction hTrace generalizing shared other with
  | missing hCurrent =>
      rcases h.eq_nil_of_current hCurrent with rfl
      exact
        (Trace.missing hCurrent).parallel_of_stops hStop
          hOtherStop h
  | expressionDone hCurrent hOperand hClimb ihOperand
      ihClimb =>
      have hMark :=
        hOperand.isMark_eq_false (fun failure => nofun)
      rcases h.exists_cons hStop hCurrent hMark with
        ⟨later, rfl⟩
      rcases ihOperand h.advance with
        ⟨_, otherMiddle, hOther, hMeets⟩
      rcases hMeets.eq_done with ⟨rfl, left, hMiddle⟩
      rcases ihClimb hMiddle with
        ⟨otherAttempt, otherAfter, hClimbed, hMeets⟩
      exact
        ⟨otherAttempt, otherAfter,
          .expressionDone h.current_cons.2 hOther hClimbed,
          hMeets⟩
  | expressionFailed hCurrent hOperand ihOperand =>
      cases shared with
      | nil =>
          exact
            (Trace.expressionFailed hCurrent
              hOperand).parallel_of_stops hStop hOtherStop h
      | cons first later =>
          rw [h.current_cons.1] at hCurrent
          cases hCurrent
          rcases ihOperand h.advance with
            ⟨_, otherAfter, hOther, hMeets⟩
          rcases hMeets.exists_failed with
            ⟨otherFailure, rfl⟩
          exact
            ⟨_, otherAfter,
              .expressionFailed h.current_cons.2 hOther,
              hMeets⟩
  | expressionFatal hCurrent hOperand ihOperand =>
      have hMark :=
        hOperand.isMark_eq_false (fun failure => nofun)
      rcases h.exists_cons hStop hCurrent hMark with
        ⟨later, rfl⟩
      rcases ihOperand h.advance with
        ⟨_, otherAfter, hOther, hMeets⟩
      rcases hMeets.eq_fatal with rfl
      exact
        ⟨_, otherAfter,
          .expressionFatal h.current_cons.2 hOther, hMeets⟩
  | leaf hUnary => exact ⟨_, other, .leaf hUnary, .before h⟩
  | prefixDone hUnary hRight ihRight =>
      rcases ihRight h with ⟨_, otherAfter, hOther, hMeets⟩
      rcases hMeets.eq_done with ⟨rfl, left, hAfter⟩
      exact
        ⟨_, otherAfter, .prefixDone hUnary hOther,
          .before hAfter⟩
  | prefixFailed hUnary hRight ihRight =>
      rcases ihRight h with ⟨_, otherAfter, hOther, hMeets⟩
      rcases hMeets.exists_failed with ⟨otherFailure, rfl⟩
      exact
        ⟨_, otherAfter, .prefixFailed hUnary hOther,
          hMeets.under .unary⟩
  | prefixFatal hUnary hRight ihRight =>
      rcases ihRight h with ⟨_, otherAfter, hOther, hMeets⟩
      rcases hMeets.eq_fatal with rfl
      exact
        ⟨_, otherAfter, .prefixFatal hUnary hOther, hMeets⟩
  | @stop floor left stream hEnds =>
      have hOther : other.bindsAbove floor = false := by
        rw [h.bindsAbove_eq hStop hOtherStop, hEnds]
      exact ⟨_, other, .stop hOther, .before h⟩
  | climbDone hCurrent hLevel hAbove hRight hClimb ihRight
      ihClimb =>
      rcases h.exists_cons hStop hCurrent
          (isMark_of_level? hLevel) with ⟨later, rfl⟩
      rcases ihRight h.advance with
        ⟨_, otherMiddle, hOther, hMeets⟩
      rcases hMeets.eq_done with ⟨rfl, left, hMiddle⟩
      rcases ihClimb hMiddle with
        ⟨otherAttempt, otherAfter, hClimbed, hMeets⟩
      exact
        ⟨otherAttempt, otherAfter,
          .climbDone h.current_cons.2 hLevel hAbove hOther
            hClimbed, hMeets⟩
  | climbFailed hCurrent hLevel hAbove hRight ihRight =>
      rcases h.exists_cons hStop hCurrent
          (isMark_of_level? hLevel) with ⟨later, rfl⟩
      rcases ihRight h.advance with
        ⟨_, otherAfter, hOther, hMeets⟩
      rcases hMeets.exists_failed with ⟨otherFailure, rfl⟩
      exact
        ⟨_, otherAfter,
          .climbFailed h.current_cons.2 hLevel hAbove
            hOther, hMeets.under .binary⟩
  | climbFatal hCurrent hLevel hAbove hRight ihRight =>
      rcases h.exists_cons hStop hCurrent
          (isMark_of_level? hLevel) with ⟨later, rfl⟩
      rcases ihRight h.advance with
        ⟨_, otherAfter, hOther, hMeets⟩
      rcases hMeets.eq_fatal with rfl
      exact
        ⟨_, otherAfter,
          .climbFatal h.current_cons.2 hLevel hAbove hOther,
          hMeets⟩

end Parse

end LetLang

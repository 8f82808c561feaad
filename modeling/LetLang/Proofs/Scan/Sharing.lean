import LetLang.Proofs.Scan.Position

/-
  Sharing: one reader, asked by direct calls and by any
  number of iterators over it.

  Whoever asks for a token is handed the next one, and
  nobody else is handed it again. So all that is handed out,
  in the order of the calls, is the start of one stream: the
  tokens of the source and then end tokens forever. The end
  token that finishes an iterator is not an answer, but it
  is read; it is listed where the iterator finishes.

  A session knows its newest iterator only. A pool keeps all
  iterators, and a call is made on one of them: it does what
  it does in the session that has this one as its newest.

  Key definitions include:
    * `Scan.Cursor.HandsOut`
    * `Scan.Call.isTokenwise`
    * `Scan.Session.handed`
    * `Scan.Pool`
    * `Scan.Pool.step`
    * `Scan.Pool.onNewest`

  Main declarations:
    * `Scan.Cursor.HandsOut.starts`
    * `Scan.Session.handsOut_step`
    * `Scan.Pool.handed_newest`
    * `Scan.Pool.shared_stream`
-/

namespace LetLang

namespace Scan

------------------------------------------------------------
-- Handing Out
------------------------------------------------------------

namespace Cursor

/-
  Reading some tokens, one after the other, leads from one
  cursor to another.
-/
inductive HandsOut :
    Cursor → List Token → Cursor → Prop where
  | nothing
      (cursor : Cursor) :
      HandsOut cursor [] cursor
  | next
      {cursor after : Cursor}
      {listed : List Token}
      (h : HandsOut cursor.next.2 listed after) :
      HandsOut cursor (cursor.next.1 :: listed) after

theorem handsOut_next
    (cursor : Cursor) :
    cursor.HandsOut [cursor.next.1] cursor.next.2 :=
  .next (.nothing cursor.next.2)

namespace HandsOut

variable
  {cursor middle after : Cursor}
  {listed later : List Token}

theorem trans
    (hFirst : cursor.HandsOut listed middle)
    (hLater : middle.HandsOut later after) :
    cursor.HandsOut (listed ++ later) after := by
  induction hFirst with
  | nothing cursor => exact hLater
  | next hRest ih => exact .next (ih hLater)

theorem eq_skip
    (h : cursor.HandsOut listed after) :
    after = cursor.skip listed.length := by
  induction h with
  | nothing cursor => rfl
  | next hRest ih => exact ih

/-
  What is handed out are tokens ahead in their order, and
  end tokens behind the last of them.
-/
theorem starts
    (h : cursor.HandsOut listed after)
    {n : Nat}
    (hLength : listed.length ≤ n) :
    listed <+:
      tokens cursor.ahead ++ List.replicate n Token.eof := by
  induction h generalizing n with
  | nothing cursor => exact List.nil_prefix
  | @next cursor after listed hRest ih =>
      rw [List.length_cons] at hLength
      cases hTokens : tokens cursor.ahead with
      | nil =>
          rcases next_of_nil hTokens with ⟨hToken, hAhead⟩
          rcases Nat.exists_eq_add_of_lt hLength with
            ⟨m, rfl⟩
          have hStarts :=
            ih (n := listed.length + m)
              (Nat.le_add_right _ _)
          rw [hAhead] at hStarts
          rw [hToken]
          exact (List.prefix_cons_inj Token.eof).mpr hStarts
      | cons token rest =>
          rcases next_of_cons hTokens with
            ⟨hToken, -, hAhead⟩
          have hStarts := ih (Nat.le_of_succ_le hLength)
          rw [hAhead] at hStarts
          rw [hToken]
          exact (List.prefix_cons_inj token).mpr hStarts

end HandsOut

/- With the end token they are all handed out. -/
theorem handsOut_drain
    (cursor : Cursor) :
    cursor.HandsOut (cursor.drain.1 ++ [Token.eof])
      cursor.drain.2 := by
  induction hTokens : tokens cursor.ahead
    generalizing cursor with
  | nil =>
      have hNext := cursor.handsOut_next
      rw [(next_of_nil hTokens).1] at hNext
      rw [drain_eq, (next_of_nil hTokens).1]
      exact hNext
  | cons token rest ih =>
      rcases next_of_cons hTokens with
        ⟨hToken, hKind, hAhead⟩
      rw [drain_eq, hToken, hKind, ← hToken]
      exact .next (ih _ hAhead)

end Cursor

------------------------------------------------------------
-- Calls for Tokens
------------------------------------------------------------

/-
  Whether a call is for tokens and not for characters: a
  direct call, one about the newest iterator, or one for all
  remaining tokens.
-/
def Call.isTokenwise : Call → Bool
  | .nextToken => true
  | .newIterator => true
  | .stepIterator => true
  | .drain => true
  | _ => false

/- The tokens in an answer. -/
def Answer.listed : Answer → List Token
  | .token found => [found]
  | .tokens found => found
  | _ => []

namespace Session

/-
  Whether an iterator finishes at a call: the newest one at
  a step, or one that lists all remaining tokens.
-/
def finishes
    (session : Session)
    (call : Call) : Bool :=
  call == .drain
    || (session.iterator == .running
      && (session.step call).2.iterator == .finished)

/-
  The tokens in the answer to a call, and an end token if an
  iterator finishes.
-/
def handing
    (session : Session)
    (call : Call) : List Token :=
  (session.step call).1.listed
    ++ if session.finishes call then [Token.eof] else []

/- All that is handed out, in the order of the calls. -/
def handed
    (session : Session) : List Call → List Token
  | [] => []
  | call :: calls =>
      session.handing call
        ++ (session.step call).2.handed calls

/- A running iterator answers with the next token. -/
theorem step_running
    {reader : Reader}
    (hKind : reader.nextToken.1.kind.isEof = false) :
    (⟨reader, .running⟩ : Session).step .stepIterator =
      (.token reader.nextToken.1,
        ⟨reader.nextToken.2, .running⟩) := by
  simp [step, stepIterator, hKind]

/- By an end token it is finished. -/
theorem step_running_of_isEof
    {reader : Reader}
    (hKind : reader.nextToken.1.kind.isEof = true) :
    (⟨reader, .running⟩ : Session).step .stepIterator =
      (.nothing, ⟨reader.nextToken.2, .finished⟩) := by
  simp [step, stepIterator, hKind]

/- An iterator that is not running stays as it is. -/
theorem iterator_step
    {session : Session}
    (hIterator : session.iterator ≠ .running)
    {call : Call}
    (hCall : call ≠ .newIterator) :
    (session.step call).2.iterator = session.iterator := by
  rcases session with ⟨reader, iterator⟩
  cases call with
  | newIterator => exact absurd rfl hCall
  | stepIterator =>
      cases iterator with
      | running => exact absurd rfl hIterator
      | absent => rfl
      | finished => rfl
  | _ => rfl

/- A call for tokens hands out what is next in the source. -/
theorem handsOut_step
    {session : Session}
    {cursor : Cursor}
    (h : session.reader.Tracks cursor)
    {call : Call}
    (hTokenwise : call.isTokenwise = true) :
    ∃ after,
      (session.step call).2.reader.Tracks after ∧
        cursor.HandsOut (session.handing call) after := by
  rcases session with ⟨reader, iterator⟩
  have hReads := h.nextToken
  have hNext := cursor.handsOut_next
  rw [← hReads.result_eq] at hNext
  cases call with
  | nextToken =>
      refine ⟨cursor.next.2, hReads.tracks, ?_⟩
      cases iterator <;> exact hNext
  | newIterator =>
      refine ⟨cursor, h, ?_⟩
      cases iterator <;> exact .nothing cursor
  | stepIterator =>
      cases iterator with
      | running =>
          unfold handing finishes
          cases hKind : reader.nextToken.1.kind.isEof with
          | true =>
              have hEof : cursor.next.1.kind = .eof := by
                rw [← hReads.result_eq]
                simpa [Token.Kind.isEof] using hKind
              have hNone :=
                Cursor.first?_eq_none_of_kind hEof
              rw [hReads.result_eq,
                Cursor.next_of_none hNone] at hNext
              rw [step_running_of_isEof hKind]
              exact ⟨cursor.next.2, hReads.tracks, hNext⟩
          | false =>
              rw [step_running hKind]
              exact ⟨cursor.next.2, hReads.tracks, hNext⟩
      | absent => exact ⟨cursor, h, .nothing cursor⟩
      | finished => exact ⟨cursor, h, .nothing cursor⟩
  | drain =>
      have hDrain := cursor.handsOut_drain
      rw [← h.drain.result_eq] at hDrain
      exact ⟨cursor.drain.2, h.drain.tracks, hDrain⟩
  | readChar => cases hTokenwise
  | peekChar => cases hTokenwise
  | skipSpaces => cases hTokenwise
  | readWord => cases hTokenwise
  | readNumber => cases hTokenwise

end Session

------------------------------------------------------------
-- Pools of Iterators
------------------------------------------------------------

/- A reader with all iterators over it, the newest last. -/
structure Pool where
  reader : Reader
  iterators : List Iterator
  deriving DecidableEq, Repr

/-
  A call, made on the iterator that has a given number of
  older ones. Only a step depends on which one it is.
-/
structure Addressed where
  index : Nat
  call : Call
  deriving DecidableEq, Repr

namespace Pool

/- A pool at the start of a source text. -/
def ofSource
    (source : String) : Pool :=
  ⟨Reader.ofSource source, []⟩

/- The place in the source at which a pool is. -/
def cursor
    (pool : Pool) : Cursor :=
  pool.reader.cursor

/- The session of which an iterator is the newest. -/
def view
    (pool : Pool)
    (index : Nat) : Session :=
  ⟨pool.reader, pool.iterators[index]?.getD .absent⟩

/- The index of the newest iterator. -/
def last
    (pool : Pool) : Nat :=
  pool.iterators.length - 1

/- The session that knows the newest iterator only. -/
def newest
    (pool : Pool) : Session :=
  pool.view pool.last

/-
  Answer a call as the session of its iterator does. A new
  iterator comes after all others, which stay.
-/
def step
    (pool : Pool)
    (request : Addressed) : Answer × Pool :=
  let (answer, session) :=
    (pool.view request.index).step request.call
  (answer,
    ⟨session.reader,
      if request.call = .newIterator then
        pool.iterators ++ [session.iterator]
      else
        pool.iterators.set request.index session.iterator⟩)

/- The pool after a number of calls. -/
def after
    (pool : Pool)
    (requests : List Addressed) : Pool :=
  requests.foldl
    (fun pool request => (pool.step request).2) pool

/- All that is handed out, in the order of the calls. -/
def handed
    (pool : Pool) : List Addressed → List Token
  | [] => []
  | request :: requests =>
      (pool.view request.index).handing request.call
        ++ (pool.step request).2.handed requests

/- Calls that are all made on the newest iterator. -/
def onNewest
    (pool : Pool) : List Call → List Addressed
  | [] => []
  | call :: calls =>
      let request : Addressed := ⟨pool.last, call⟩
      request :: (pool.step request).2.onNewest calls

------------------------------------------------------------
-- The Newest Iterator
------------------------------------------------------------

/- A call on the newest iterator is a call in its session. -/
theorem newest_step
    (pool : Pool)
    (call : Call) :
    (pool.step ⟨pool.last, call⟩).2.newest =
      (pool.newest.step call).2 := by
  have hIterator :
      (pool.step ⟨pool.last, call⟩).2.newest.iterator =
        (pool.newest.step call).2.iterator := by
    unfold step newest last view
    dsimp only
    split
    · simp
    · rename_i hCall
      cases hIterators : pool.iterators with
      | nil =>
          -- There is no place to keep what is absent.
          rw [Session.iterator_step (by simp) hCall]
          rfl
      | cons first rest => simp
  exact
    congrArg (Session.mk (pool.newest.step call).2.reader)
      hIterator

/-
  So a session is what is seen of a pool, if all calls are
  made on the newest iterator.
-/
theorem handed_newest
    (pool : Pool)
    (calls : List Call) :
    pool.newest.handed calls =
        pool.handed (pool.onNewest calls) ∧
      pool.newest.after calls =
        (pool.after (pool.onNewest calls)).newest := by
  induction calls generalizing pool with
  | nil => exact ⟨rfl, rfl⟩
  | cons call calls ih =>
      have hStep := pool.newest_step call
      rcases ih (pool.step ⟨pool.last, call⟩).2 with
        ⟨hHanded, hAfter⟩
      rw [hStep] at hHanded hAfter
      exact
        ⟨congrArg (pool.newest.handing call ++ ·) hHanded,
          hAfter⟩

------------------------------------------------------------
-- All Iterators
------------------------------------------------------------

/- Calls for tokens hand out what is next in the source. -/
theorem handsOut_after
    {pool : Pool}
    {cursor : Cursor}
    (h : pool.reader.Tracks cursor)
    {requests : List Addressed}
    (hTokenwise :
      ∀ request ∈ requests,
        request.call.isTokenwise = true) :
    ∃ after,
      (pool.after requests).reader.Tracks after ∧
        cursor.HandsOut (pool.handed requests) after := by
  induction requests generalizing pool cursor with
  | nil => exact ⟨cursor, h, .nothing cursor⟩
  | cons request requests ih =>
      rcases List.forall_mem_cons.mp hTokenwise with
        ⟨hFirst, hRest⟩
      have hView :
          (pool.view request.index).reader.Tracks cursor :=
        h
      rcases Session.handsOut_step hView hFirst with
        ⟨middle, hStep, hHands⟩
      have hPool :
          (pool.step request).2.reader.Tracks middle :=
        hStep
      rcases ih hPool hRest with ⟨after, hAfter, hLater⟩
      exact ⟨after, hAfter, hHands.trans hLater⟩

/- An iterator that is finished is so after any call. -/
theorem finished_step
    {pool : Pool}
    {index : Nat}
    (h : pool.iterators[index]? = some .finished)
    (request : Addressed) :
    (pool.step request).2.iterators[index]? =
      some .finished := by
  have hLength : index < pool.iterators.length :=
    (List.getElem?_eq_some_iff.mp h).1
  unfold step
  dsimp only
  split
  · rw [List.getElem?_append_left hLength]
    exact h
  · rename_i hCall
    by_cases hIndex : request.index = index
    · have hView :
          (pool.view request.index).iterator =
            .finished := by
        simp [view, hIndex, h]
      have hKept :
          ((pool.view request.index).step
              request.call).2.iterator =
            .finished := by
        rw [Session.iterator_step _ hCall, hView]
        rw [hView]
        decide
      rw [hKept, hIndex, List.getElem?_set_self hLength]
    · rw [List.getElem?_set_ne hIndex]
      exact h

/- And after any number of calls. -/
theorem finished_after
    {pool : Pool}
    {index : Nat}
    (h : pool.iterators[index]? = some .finished)
    (requests : List Addressed) :
    (pool.after requests).iterators[index]? =
      some .finished := by
  induction requests generalizing pool with
  | nil => exact h
  | cons request requests ih =>
      exact ih (finished_step h request)

/- A step of a finished iterator changes nothing. -/
theorem step_of_finished
    {pool : Pool}
    {index : Nat}
    (h : pool.iterators[index]? = some .finished) :
    pool.step ⟨index, .stepIterator⟩ = (.nothing, pool) := by
  have hView :
      pool.view index = ⟨pool.reader, .finished⟩ := by
    simp [view, h]
  have hSet :
      pool.iterators.set index .finished =
        pool.iterators := by
    rcases List.getElem?_eq_some_iff.mp h with
      ⟨hLength, hFinished⟩
    rw [← hFinished, List.set_getElem_self]
  unfold step
  dsimp only
  rw [hView]
  simp [Session.step, Session.stepIterator, hSet]

------------------------------------------------------------
-- One Stream
------------------------------------------------------------

/-
  However calls for tokens are mixed, and whichever iterator
  each of them is made on, what is handed out is the start
  of one stream, the tokens of the source and then end
  tokens, and the cursor stands behind exactly that. An
  iterator that is finished stays so whatever is called
  later, and a step of it changes nothing. Where all calls
  are made on the newest iterator, this is what a session
  hands out and where it ends.
-/
theorem shared_stream
    (source : String)
    (requests : List Addressed)
    (hTokenwise :
      ∀ request ∈ requests,
        request.call.isTokenwise = true) :
    let pool := (ofSource source).after requests
    let handed := (ofSource source).handed requests
    handed <+:
        tokenize source
          ++ List.replicate handed.length Token.eof ∧
      pool.cursor =
        (Cursor.ofSource source).skip handed.length ∧
      (∀ index,
        pool.iterators[index]? = some .finished →
          ∀ later,
            let pool := pool.after later
            pool.iterators[index]? = some .finished ∧
              pool.step ⟨index, .stepIterator⟩ =
                (.nothing, pool)) ∧
      ∀ calls,
        requests = (ofSource source).onNewest calls →
          (Session.ofSource source).handed calls = handed ∧
            (Session.ofSource source).after calls =
              pool.newest := by
  intro pool handed
  have hStart :
      (ofSource source).reader.Tracks
        (Cursor.ofSource source) :=
    Reader.tracks_ofSource source
  rcases handsOut_after hStart hTokenwise with
    ⟨after, hTracks, hHandsOut⟩
  obtain rfl : pool.cursor = after := hTracks.cursor_eq
  have hStarts :=
    hHandsOut.starts (Nat.le_succ handed.length)
  rw [List.replicate_succ, List.append_cons] at hStarts
  refine ⟨hStarts, hHandsOut.eq_skip, ?_, ?_⟩
  · intro index hFinished later
    have hLater := finished_after hFinished later
    exact ⟨hLater, step_of_finished hLater⟩
  · rintro calls rfl
    exact (ofSource source).handed_newest calls

/-
  The second of two iterators finds no token left by a call
  for all of them. Once finished, it hands out nothing, even
  if the first one is stepped and a third one is made.
-/
theorem shared_stream_two :
    let calls : List Call :=
      [.newIterator, .stepIterator, .newIterator,
        .nextToken, .drain, .stepIterator]
    let later : List Addressed :=
      [⟨0, .stepIterator⟩, ⟨0, .newIterator⟩,
        ⟨2, .stepIterator⟩, ⟨0, .nextToken⟩]
    let requests := (ofSource "let x = 5").onNewest calls
    let pool := (ofSource "let x = 5").after requests
    let handed :=
      [⟨.letWord, "let"⟩, ⟨.ident, "x"⟩, ⟨.assign, "="⟩,
        ⟨.int, "5"⟩, Token.eof, Token.eof]
    (∀ request ∈ requests,
        request.call.isTokenwise = true) ∧
      (ofSource "let x = 5").handed requests = handed ∧
      handed <+:
        tokenize "let x = 5"
          ++ List.replicate handed.length Token.eof ∧
      (Session.ofSource "let x = 5").handed calls = handed ∧
      pool.iterators[1]? = some .finished ∧
      (pool.after later).step ⟨1, .stepIterator⟩ =
        (.nothing, pool.after later) := by
  intro calls later requests pool handed
  have hTokenwise :
      ∀ request ∈ requests,
        request.call.isTokenwise = true := by
    decide +kernel
  have hHanded :
      (ofSource "let x = 5").handed requests = handed := by
    decide +kernel
  have hFinished : pool.iterators[1]? = some .finished := by
    decide +kernel
  rcases shared_stream "let x = 5" requests hTokenwise with
    ⟨hStarts, -, hLater, hSession⟩
  rw [hHanded] at hStarts hSession
  exact
    ⟨hTokenwise, hHanded, hStarts, (hSession calls rfl).1,
      hFinished, (hLater 1 hFinished later).2⟩

end Pool

end Scan

end LetLang

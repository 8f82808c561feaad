import LetLang.Proofs.Scan.Reader
import LetLang.Scan.Session

/-
  Positions: where a reader stands in its source, whatever
  has been asked of it before.

  All that a call does to a reader is to move it forward,
  and it keeps tracking a cursor. So the source is kept, no
  call moves back, and what is ahead is the source from the
  position on. The text of a token that is read ends at the
  new position, behind the spaces in front of it. Past the
  end the reader still moves, but nothing is ahead of it any
  more.

  Key definitions include:
    * `Scan.Cursor.Later`
    * `Scan.Account`
    * `Scan.Session.after`

  Main declarations:
    * `Scan.Cursor.account`
    * `Scan.Session.later_step`
    * `Scan.Session.standing_after`
-/

namespace LetLang

namespace Scan

open Text

------------------------------------------------------------
-- Moving Forward
------------------------------------------------------------

namespace Cursor

/- One cursor is the other, some characters later. -/
def Later
    (cursor after : Cursor) : Prop :=
  ∃ n, after = cursor.advance n

namespace Later

theorem refl
    (cursor : Cursor) :
    cursor.Later cursor :=
  ⟨0, rfl⟩

theorem trans
    {cursor middle after : Cursor}
    (hFirst : cursor.Later middle)
    (hLater : middle.Later after) :
    cursor.Later after := by
  rcases hFirst with ⟨m, rfl⟩
  rcases hLater with ⟨n, rfl⟩
  exact ⟨m + n, cursor.advance_advance m n⟩

theorem position_le
    {cursor after : Cursor}
    (h : cursor.Later after) :
    cursor.position ≤ after.position := by
  rcases h with ⟨n, rfl⟩
  exact Nat.le_add_right cursor.position n

theorem source_eq
    {cursor after : Cursor}
    (h : cursor.Later after) :
    after.source = cursor.source := by
  rcases h with ⟨n, rfl⟩
  rfl

/- Where no token is ahead, none will be. -/
theorem first?_eq_none
    {cursor after : Cursor}
    (h : cursor.Later after)
    (hNone : first? cursor.ahead = none) :
    first? after.ahead = none := by
  rcases h with ⟨n, rfl⟩
  apply first?_of_isSpace
  intro c hMem
  rw [ahead_advance] at hMem
  exact
    isSpace_of_first?_eq_none hNone c
      (List.mem_of_mem_drop hMem)

end Later

theorem later_skipSpaces
    (cursor : Cursor) :
    cursor.Later cursor.skipSpaces :=
  ⟨_, rfl⟩

/- To read a token, or the end token, is to move forward. -/
theorem later_next
    (cursor : Cursor) :
    cursor.Later cursor.next.2 := by
  unfold next
  dsimp only
  split
  · exact cursor.later_skipSpaces.trans ⟨1, rfl⟩
  · exact cursor.later_skipSpaces.trans ⟨_, rfl⟩

theorem later_skip
    (cursor : Cursor)
    (n : Nat) :
    cursor.Later (cursor.skip n) := by
  induction n generalizing cursor with
  | zero => exact Later.refl cursor
  | succ n ih => exact cursor.later_next.trans (ih _)

end Cursor

------------------------------------------------------------
-- Accounts
------------------------------------------------------------

/- How many spaces there are from a position on. -/
def spacesFrom
    (source : List Char)
    (start : Nat) : Nat :=
  ((source.drop start).takeWhile isSpace).length

/-
  What is passed when a token is read from a position: the
  spaces there, and the text of the token, which ends where
  the reading stops. The end token is read if nothing is
  left behind the spaces, and one more position is passed.
-/
inductive Account
    (source : List Char)
    (start : Nat) : Token → Nat → Prop where
  | text
      {token : Token}
      {stop : Nat}
      (hKind : token.kind ≠ .eof)
      (hStop :
        stop =
          start + spacesFrom source start
            + token.literal.length)
      (hText :
        source.extract (stop - token.literal.length) stop =
          token.literal.toList) :
      Account source start token stop
  | none
      (hEnd :
        source.length ≤ start + spacesFrom source start) :
      Account source start Token.eof
        (start + spacesFrom source start + 1)

namespace Cursor

/- The end token is read only if no token is ahead. -/
theorem first?_eq_none_of_kind
    {cursor : Cursor}
    (hKind : cursor.next.1.kind = .eof) :
    first? cursor.ahead = none := by
  cases hFirst : first? cursor.ahead with
  | none => rfl
  | some pair =>
      rcases pair with ⟨token, rest⟩
      rcases lexical_of_first? hFirst with
        ⟨-, -, -, hLexical, -⟩
      rw [(ahead_next hFirst).1] at hKind
      exact absurd hKind hLexical.kind_ne_eof

/-
  Every token that is read is accounted for, if what is
  ahead is the source from the position on.
-/
theorem account
    {cursor : Cursor}
    (hAhead :
      cursor.ahead = cursor.source.drop cursor.position) :
    Account cursor.source cursor.position cursor.next.1
      cursor.next.2.position := by
  have hSpaces :
      cursor.skipSpaces =
        cursor.advance
          (spacesFrom cursor.source cursor.position) := by
    unfold skipSpaces takeRun spacesFrom
    rw [hAhead]
  have hRest := congrArg Cursor.ahead hSpaces
  rw [ahead_advance, hAhead, List.drop_drop] at hRest
  have hStart := congrArg Cursor.position hSpaces
  rw [position_advance] at hStart
  unfold next
  dsimp only
  cases hText : cursor.skipSpaces.ahead with
  | nil =>
      rw [hText] at hRest
      dsimp only
      rw [position_advance, hStart]
      exact .none (List.drop_eq_nil_iff.mp hRest.symm)
  | cons c text =>
      have hSpace : isSpace c = false :=
        isSpace_of_skipSpaces hText
      rw [hText, ← lexeme_append c text] at hRest
      dsimp only
      rw [position_advance, hStart]
      have hKind : (lexeme c text).1.kind ≠ .eof :=
        (lexical_lexeme hSpace text).1.kind_ne_eof
      refine .text hKind rfl ?_
      rw [Nat.add_sub_cancel, List.extract_eq_take_drop,
        ← hRest, Nat.add_sub_cancel_left,
        ← String.length_toList]
      exact List.take_left

end Cursor

------------------------------------------------------------
-- Sessions
------------------------------------------------------------

namespace Session

/- The session after a number of calls. -/
def after
    (session : Session)
    (calls : List Call) : Session :=
  calls.foldl
    (fun session call => (session.step call).2) session

/- The last answer is the one to the last call. -/
theorem run_concat
    (session : Session)
    (calls : List Call)
    (call : Call) :
    session.run (calls ++ [call]) =
      session.run calls
        ++ [(session.after calls).step call] := by
  induction calls generalizing session with
  | nil => rfl
  | cons first calls ih =>
      exact
        congrArg (List.cons (session.step first))
          (ih (session.step first).2)

/-
  An iterator leaves the reader alone, or moves it as a call
  for the next token does. So the calls for a token account
  for any other iterators that there are.
-/
theorem reader_stepIterator
    (session : Session) :
    session.stepIterator.2.reader = session.reader ∨
      session.stepIterator.2.reader =
        session.reader.nextToken.2 := by
  unfold stepIterator
  split
  · dsimp only
    split
    · exact Or.inr rfl
    · exact Or.inr rfl
  · exact Or.inl rfl

/- Any call moves the reader forward, if at all. -/
theorem later_step
    {session : Session}
    {cursor : Cursor}
    (h : session.reader.Tracks cursor)
    (call : Call) :
    ∃ after,
      (session.step call).2.reader.Tracks after ∧
        cursor.Later after := by
  cases call with
  | nextToken =>
      exact ⟨_, h.nextToken.tracks, cursor.later_next⟩
  | readChar => exact ⟨_, h.readChar, ⟨1, rfl⟩⟩
  | peekChar => exact ⟨_, h, .refl cursor⟩
  | skipSpaces =>
      exact
        ⟨_, h.skipWhile isSpace, cursor.later_skipSpaces⟩
  | readWord =>
      exact ⟨_, (h.readRun isLetter).tracks, ⟨_, rfl⟩⟩
  | readNumber =>
      exact ⟨_, (h.readRun isDigit).tracks, ⟨_, rfl⟩⟩
  | newIterator => exact ⟨_, h, .refl cursor⟩
  | stepIterator =>
      unfold step
      rcases session.reader_stepIterator with hSame | hNext
      · rw [hSame]
        exact ⟨_, h, .refl cursor⟩
      · rw [hNext]
        exact ⟨_, h.nextToken.tracks, cursor.later_next⟩
  | drain =>
      exact ⟨_, h.drain.tracks, cursor.later_skip _⟩

/- So do any number of calls. -/
theorem later_after
    {session : Session}
    {cursor : Cursor}
    (h : session.reader.Tracks cursor)
    (calls : List Call) :
    ∃ after,
      (session.after calls).reader.Tracks after ∧
        cursor.Later after := by
  induction calls generalizing session cursor with
  | nil => exact ⟨cursor, h, .refl cursor⟩
  | cons call calls ih =>
      rcases later_step h call with ⟨middle, hStep, hFirst⟩
      rcases ih hStep with ⟨after, hAfter, hLater⟩
      exact ⟨after, hAfter, hFirst.trans hLater⟩

/-
  Whatever has been asked of a session, its reader stands at
  its position in the source with the character there in
  view and the next one to be read, and no further call
  moves it back. A token that is read next, character by
  character, is the one that stands there, with all that is
  passed accounted for, and after the end token there are
  only end tokens.
-/
theorem standing_after
    (source : String)
    (calls : List Call) :
    let session := (ofSource source).after calls
    let reader := session.reader
    let cursor := session.cursor
    (∀ call,
        (ofSource source).run (calls ++ [call]) =
            (ofSource source).run calls
              ++ [session.step call] ∧
          reader.position ≤
            (session.step call).2.reader.position) ∧
      reader.source = source.toList ∧
      reader.readPosition = reader.position + 1 ∧
      reader.current = source.toList[reader.position]? ∧
      reader.peekChar =
        source.toList[reader.position + 1]? ∧
      (session.step .peekChar).2 = session ∧
      session.step .nextToken =
        (.token reader.nextToken.1,
          { session with reader := reader.nextToken.2 }) ∧
      Reader.ReadsAs reader.nextToken cursor.next ∧
      Account source.toList reader.position
        reader.nextToken.1 reader.nextToken.2.position ∧
      (reader.nextToken.1.kind = .eof →
        ∀ later,
          ((session.after later).step .nextToken).1 =
            .token Token.eof) := by
  intro session reader cursor
  have hStart :
      (ofSource source).reader.Tracks
        (Cursor.ofSource source) :=
    Reader.tracks_ofSource source
  rcases later_after hStart calls with
    ⟨place, hTracks, hPlace⟩
  obtain rfl : cursor = place := hTracks.cursor_eq
  have hSource : reader.source = source.toList :=
    hPlace.source_eq
  have hReads := hTracks.nextToken
  refine
    ⟨?_, hSource, hTracks.readPosition_eq, ?_, ?_, rfl, rfl,
      hReads, ?_, ?_⟩
  · intro call
    rcases later_step hTracks call with
      ⟨after, hAfter, hLater⟩
    refine ⟨(ofSource source).run_concat calls call, ?_⟩
    rw [hTracks.position_eq, hAfter.position_eq]
    exact hLater.position_le
  · rw [hTracks.current_eq, ← hSource]
    exact List.head?_drop
  · rw [hTracks.peekChar_eq, ← hSource]
    exact (congrArg List.head? List.tail_drop).trans
      List.head?_drop
  · have hAhead :
        cursor.ahead = cursor.source.drop cursor.position :=
      rfl
    rw [hReads.result_eq, hReads.tracks.position_eq,
      ← hSource]
    exact Cursor.account hAhead
  · intro hKind later
    rw [hReads.result_eq] at hKind
    have hNone : first? cursor.ahead = none :=
      Cursor.first?_eq_none_of_kind hKind
    rcases later_after hTracks later with
      ⟨after, hAfter, hLater⟩
    have hEof :=
      Cursor.next_of_none (hLater.first?_eq_none hNone)
    exact
      congrArg Answer.token
        (hAfter.nextToken.result_eq.trans hEof)

/-
  A word that is entered behind its first character is read
  to its end. What follows is read up to the end, and past
  it there are end tokens, however they are asked for.
-/
theorem standing_after_end :
    let session :=
      (ofSource "ab =").after
        [.readChar, .nextToken, .nextToken]
    (ofSource "ab =").run [.readChar, .nextToken, .nextToken]
        =
      [(.nothing, (ofSource "ab =").after [.readChar]),
        (.token ⟨.ident, "b"⟩,
          (ofSource "ab =").after [.readChar, .nextToken]),
        (.token ⟨.assign, "="⟩, session)] ∧
      session.reader.position = 4 ∧
      session.reader.nextToken.1.kind = .eof ∧
      ∀ later,
        ((session.after later).step .nextToken).1 =
          .token Token.eof := by
  intro session
  have hKind :
      session.reader.nextToken.1.kind = .eof := by
    decide +kernel
  rcases
    standing_after "ab =" [.readChar, .nextToken, .nextToken]
    with ⟨-, -, -, -, -, -, -, -, -, hEnd⟩
  exact
    ⟨by decide +kernel, by decide +kernel, hKind, hEnd hKind⟩

end Session

end Scan

end LetLang

import LetLang.Scan.Lexeme

/-
  A cursor over a source text, for reading it character by
  character or token by token in any mixture.

  The cursor stands on a character, or past the end. Reading
  past the end is allowed and still counts: the position of
  the cursor is the number of characters asked for, not the
  number there were.

  Key definitions include:
    * `Scan.Cursor`
    * `Scan.Cursor.current`
    * `Scan.Cursor.next`
    * `Scan.Cursor.drain`
-/

namespace LetLang

namespace Scan

open Text

/-
  A place in a source text: how many characters have been
  read, and which are still ahead.
-/
structure Cursor where
  source : List Char
  position : Nat
  ahead : List Char
  deriving DecidableEq, Repr

namespace Cursor

/- The cursor at the start of a source text. -/
def ofSource
    (source : String) : Cursor :=
  ⟨source.toList, 0, source.toList⟩

------------------------------------------------------------
-- Looking
------------------------------------------------------------

/- The character under the cursor, none past the end. -/
def current
    (cursor : Cursor) : Option Char :=
  cursor.ahead.head?

/- The character after the one under the cursor. -/
def peek
    (cursor : Cursor) : Option Char :=
  cursor.ahead.tail.head?

/- The index of the character that is read next. -/
def readPosition
    (cursor : Cursor) : Nat :=
  cursor.position + 1

------------------------------------------------------------
-- Moving
------------------------------------------------------------

/- Move forward by a number of characters. -/
def advance
    (cursor : Cursor)
    (n : Nat) : Cursor :=
  { cursor with
    position := cursor.position + n
    ahead := cursor.ahead.drop n }

/-
  Read the characters under the cursor as long as they are
  of one class.
-/
def takeRun
    (cursor : Cursor)
    (p : Char → Bool) : List Char × Cursor :=
  let run := cursor.ahead.takeWhile p
  (run, cursor.advance run.length)

/- Move past the spaces under the cursor. -/
def skipSpaces
    (cursor : Cursor) : Cursor :=
  (cursor.takeRun isSpace).2

/-
  Read the next token. At the end of the source this is the
  end token, and the cursor still moves by one.
-/
def next
    (cursor : Cursor) : Token × Cursor :=
  let cursor := cursor.skipSpaces
  match cursor.ahead with
  | [] => (Token.eof, cursor.advance 1)
  | c :: text =>
      let token := (lexeme c text).1
      (token, cursor.advance token.literal.length)

/- Read a number of tokens and forget them. -/
def skip
    (cursor : Cursor) : Nat → Cursor
  | 0 => cursor
  | n + 1 => cursor.next.2.skip n

/-
  Read all remaining tokens and the end token after them,
  which is not listed.
-/
def drain
    (cursor : Cursor) : List Token × Cursor :=
  let listed := tokens cursor.ahead
  (listed, cursor.skip (listed.length + 1))

------------------------------------------------------------
-- Laws of Motion
------------------------------------------------------------

theorem advance_advance
    (cursor : Cursor)
    (m n : Nat) :
    (cursor.advance m).advance n =
      cursor.advance (m + n) := by
  simp [advance, Nat.add_assoc]

@[simp]
theorem position_advance
    (cursor : Cursor)
    (n : Nat) :
    (cursor.advance n).position = cursor.position + n :=
  rfl

@[simp]
theorem ahead_advance
    (cursor : Cursor)
    (n : Nat) :
    (cursor.advance n).ahead = cursor.ahead.drop n :=
  rfl

theorem ahead_takeRun
    (cursor : Cursor)
    (p : Char → Bool) :
    (cursor.takeRun p).2.ahead =
      cursor.ahead.dropWhile p := by
  simp only [takeRun, ahead_advance]
  generalize cursor.ahead = text
  induction text with
  | nil => rfl
  | cons c text ih =>
      cases h : p c <;> simp [h, ih]

theorem ahead_skipSpaces
    (cursor : Cursor) :
    cursor.skipSpaces.ahead =
      cursor.ahead.dropWhile isSpace :=
  ahead_takeRun cursor isSpace

/- A token that is read leaves what follows its text. -/
theorem ahead_next
    {cursor : Cursor}
    {token : Token}
    {rest : List Char}
    (h : first? cursor.ahead = some (token, rest)) :
    cursor.next.1 = token ∧
      cursor.next.2.ahead = rest := by
  unfold first? at h
  unfold next
  rw [← ahead_skipSpaces] at h
  cases hAhead : cursor.skipSpaces.ahead with
  | nil => simp [hAhead] at h
  | cons c text =>
      rw [hAhead] at h
      have hLexeme := Option.some.inj h
      have hAppend := lexeme_append c text
      rw [hLexeme] at hAppend
      simp only [hAhead, hLexeme, ahead_advance]
      refine ⟨trivial, ?_⟩
      rw [← hAppend, ← String.length_toList]
      exact List.drop_left

/- With only spaces left, the end token is read. -/
theorem next_of_none
    {cursor : Cursor}
    (h : first? cursor.ahead = none) :
    cursor.next.1 = Token.eof := by
  unfold first? at h
  unfold next
  rw [← ahead_skipSpaces] at h
  cases hAhead : cursor.skipSpaces.ahead with
  | nil => simp [hAhead]
  | cons c text => simp [hAhead] at h

/- A cursor reads the first token ahead, or the end token. -/
theorem next_eq
    (cursor : Cursor) :
    cursor.next.1 = (tokens cursor.ahead).headD Token.eof ∧
      tokens cursor.next.2.ahead =
        (tokens cursor.ahead).tail := by
  cases hFirst : first? cursor.ahead with
  | some first =>
      rcases first with ⟨token, rest⟩
      rcases ahead_next hFirst with ⟨hToken, hAhead⟩
      rw [tokens_of_some hFirst, hToken, hAhead]
      exact ⟨rfl, rfl⟩
  | none =>
      have hSpaces : cursor.skipSpaces.ahead = [] := by
        unfold first? at hFirst
        rw [ahead_skipSpaces]
        split at hFirst
        · rename_i hDrop
          exact hDrop
        · cases hFirst
      have hAhead : cursor.next.2.ahead = [] := by
        simp [next, hSpaces]
      have hNil : tokens ([] : List Char) = [] :=
        tokens_of_none rfl
      rw [next_of_none hFirst, tokens_of_none hFirst,
        hAhead, hNil]
      exact ⟨rfl, rfl⟩

/- Reading tokens leaves those behind them. -/
theorem tokens_skip
    (cursor : Cursor)
    (n : Nat) :
    tokens (cursor.skip n).ahead =
      (tokens cursor.ahead).drop n := by
  induction n generalizing cursor with
  | zero => rfl
  | succ n ih =>
      rw [skip, ih, cursor.next_eq.2, List.drop_tail]

end Cursor

end Scan

end LetLang

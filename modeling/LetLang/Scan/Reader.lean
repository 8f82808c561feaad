import LetLang.Scan.Cursor

/-
  A reader of a source text, which has one character under
  examination.

  A reader keeps this character, its position, and the
  position of the character that is read next. It moves by
  reading that one, and in no other way: a run is passed by
  reading while its class lasts. A token is known from its
  first character, sometimes with a look at the second.
  Whether its last character has been passed is known
  afterwards from its kind: runs have been passed to their
  end, all other tokens but for one character.

  Key definitions include:
    * `Scan.Reader`
    * `Scan.Reader.readChar`
    * `Scan.Reader.skipWhile`
    * `Scan.Reader.nextToken`
    * `Scan.Reader.drain`
    * `Scan.Reader.cursor`
-/

namespace LetLang

namespace Scan

open Text

/- A source text and how far it is read. -/
structure Reader where
  source : List Char
  position : Nat
  readPosition : Nat
  current : Option Char
  deriving DecidableEq, Repr

namespace Reader

------------------------------------------------------------
-- Characters
------------------------------------------------------------

/- Read the next character; past the end there is none. -/
def readChar
    (reader : Reader) : Reader :=
  { reader with
    position := reader.readPosition
    readPosition := reader.readPosition + 1
    current := reader.source[reader.readPosition]? }

/- A reader that has read the first character of a text. -/
def ofSource
    (source : String) : Reader :=
  readChar ⟨source.toList, 0, 0, none⟩

/- The next character, which is not read. -/
def peekChar
    (reader : Reader) : Option Char :=
  reader.source[reader.readPosition]?

/-
  How many characters can still be under examination. This
  makes loops end in any state, also in one that reading
  would not lead to.
-/
def left
    (reader : Reader) : Nat :=
  reader.current.toList.length
    + (reader.source.length - reader.readPosition)

theorem left_readChar
    (reader : Reader) :
    reader.readChar.left =
      reader.source.length - reader.readPosition := by
  unfold left readChar
  dsimp only
  by_cases h : reader.readPosition < reader.source.length
  · rw [List.getElem?_eq_getElem h]
    simp only [Option.toList_some, List.length_singleton]
    omega
  · rw [List.getElem?_eq_none (by omega)]
    simp only [Option.toList_none, List.length_nil]
    omega

theorem left_readChar_le
    (reader : Reader) :
    reader.readChar.left ≤ reader.left := by
  rw [left_readChar]
  exact Nat.le_add_left _ _

theorem left_readChar_lt
    {reader : Reader}
    {c : Char}
    (h : reader.current = some c) :
    reader.readChar.left < reader.left := by
  rw [left_readChar]
  unfold left
  rw [h]
  simp only [Option.toList_some, List.length_singleton]
  omega

------------------------------------------------------------
-- Runs
------------------------------------------------------------

/- Read on as long as the character is of a class. -/
def skipWhile
    (reader : Reader)
    (p : Char → Bool) : Reader :=
  match _hCurrent : reader.current with
  | none => reader
  | some c =>
      if p c then reader.readChar.skipWhile p else reader
termination_by reader.left
decreasing_by exact left_readChar_lt _hCurrent

theorem skipWhile_of_none
    {reader : Reader}
    (h : reader.current = none)
    (p : Char → Bool) :
    reader.skipWhile p = reader := by
  rw [skipWhile]
  split
  · rfl
  · rename_i c hSome
    rw [h] at hSome
    cases hSome

theorem skipWhile_of_some
    {reader : Reader}
    {c : Char}
    (h : reader.current = some c)
    (p : Char → Bool) :
    reader.skipWhile p =
      if p c then reader.readChar.skipWhile p
      else reader := by
  rw [skipWhile]
  split
  · rename_i hNone
    rw [h] at hNone
    cases hNone
  · rename_i d hSome
    rw [h] at hSome
    cases hSome
    rfl

theorem left_skipWhile_le
    (reader : Reader)
    (p : Char → Bool) :
    (reader.skipWhile p).left ≤ reader.left := by
  induction reader using skipWhile.induct p with
  | case1 reader hCurrent =>
      have hStop := skipWhile_of_none hCurrent p
      exact Nat.le_of_eq (congrArg left hStop)
  | case2 reader c hCurrent hClass ih =>
      rw [skipWhile_of_some hCurrent, if_pos hClass]
      exact Nat.le_trans ih reader.left_readChar_le
  | case3 reader c hCurrent hClass =>
      have hStop : reader.skipWhile p = reader := by
        rw [skipWhile_of_some hCurrent, if_neg hClass]
      exact Nat.le_of_eq (congrArg left hStop)

theorem left_skipWhile_lt
    {reader : Reader}
    {c : Char}
    {p : Char → Bool}
    (hCurrent : reader.current = some c)
    (hClass : p c = true) :
    (reader.skipWhile p).left < reader.left := by
  rw [skipWhile_of_some hCurrent, if_pos hClass]
  exact Nat.lt_of_le_of_lt
    (reader.readChar.left_skipWhile_le p)
    (left_readChar_lt hCurrent)

/- Read on past the spaces. -/
def skipSpaces
    (reader : Reader) : Reader :=
  reader.skipWhile isSpace

/-
  Read a run of one class. Its text is cut out of the source
  between the positions before and after it.
-/
def readRun
    (reader : Reader)
    (p : Char → Bool) : List Char × Reader :=
  let after := reader.skipWhile p
  (reader.source.extract reader.position after.position,
    after)

------------------------------------------------------------
-- Tokens
------------------------------------------------------------

/-
  The token under examination, where no space is. The reader
  is left behind a run, but before the last character of any
  other token.
-/
def readText
    (reader : Reader) : Token × Reader :=
  match reader.current with
  | none => (Token.eof, reader)
  | some c =>
      if c = '=' ∨ c = '!' then
        if reader.peekChar = some '=' then
          (⟨if c = '=' then .equal else .notEqual,
            String.ofList [c, '=']⟩, reader.readChar)
        else
          (⟨if c = '=' then .assign else .bang,
            String.singleton c⟩, reader)
      else
        match Token.kindOfSymbol? c with
        | some kind => (⟨kind, String.singleton c⟩, reader)
        | none =>
            if isDigit c then
              let (run, after) := reader.readRun isDigit
              (number run, after)
            else if isLetter c then
              let (run, after) := reader.readRun isLetter
              (word run, after)
            else
              (⟨.illegal, String.singleton c⟩, reader)

/- Whether tokens of a kind are runs. -/
def isRun
    (kind : Token.Kind) : Bool :=
  kind.isWordLike || kind.isInt

/- Pass the last character of a token that is no run. -/
def passLast :
    Token × Reader → Token × Reader
  | (token, after) =>
      if isRun token.kind then
        (token, after)
      else
        (token, after.readChar)

/- Read the token behind the spaces, or the end token. -/
def nextToken
    (reader : Reader) : Token × Reader :=
  passLast reader.skipSpaces.readText

/- No symbol is a run. -/
theorem isRun_of_kindOfSymbol?
    {c : Char}
    {kind : Token.Kind}
    (h : Token.kindOfSymbol? c = some kind) :
    isRun kind = false := by
  have hAll :
      isRun ((Token.symbols.lookup c).getD .illegal) =
        false :=
    Token.lookup_getD_of_forall
      (P := fun kind => isRun kind = false)
      (by decide) rfl c
  unfold Token.kindOfSymbol? at h
  rw [h] at hAll
  exact hAll

/-
  A token that is under examination is passed with at least
  one character.
-/
theorem left_passLast_readText_lt
    {reader : Reader}
    {c : Char}
    (hCurrent : reader.current = some c) :
    (passLast reader.readText).2.left < reader.left := by
  have hRead := left_readChar_lt hCurrent
  have hAgain := reader.readChar.left_readChar_le
  unfold readText
  rw [hCurrent]
  dsimp only
  split
  · split
    · split
      · exact Nat.lt_of_le_of_lt hAgain hRead
      · exact Nat.lt_of_le_of_lt hAgain hRead
    · split
      · exact hRead
      · exact hRead
  · split
    · rename_i kind hKind
      simp only [passLast, isRun_of_kindOfSymbol? hKind]
      exact hRead
    · split
      · rename_i hDigit
        exact left_skipWhile_lt hCurrent hDigit
      · split
        · rename_i hLetter
          have hRun
              (run : List Char) :
              isRun (word run).kind = true := by
            simp [isRun, word, Token.isWordLike_kindOfWord]
          simp only [passLast, hRun, if_true]
          exact left_skipWhile_lt hCurrent hLetter
        · exact hRead

/- So there is less to read after any token but the end. -/
theorem left_nextToken_lt
    {reader after : Reader}
    {token : Token}
    (h : reader.nextToken = (token, after))
    (hKind : token.kind.isEof = false) :
    after.left < reader.left := by
  have hSpaces : reader.skipSpaces.left ≤ reader.left :=
    reader.left_skipWhile_le isSpace
  unfold nextToken at h
  cases hCurrent : reader.skipSpaces.current with
  | none =>
      unfold readText at h
      rw [hCurrent] at h
      cases h
      cases hKind
  | some c =>
      have hLess := left_passLast_readText_lt hCurrent
      rw [h] at hLess
      exact Nat.lt_of_lt_of_le hLess hSpaces

/-
  Read all remaining tokens and the end token after them,
  which is not listed.
-/
def drain
    (reader : Reader) : List Token × Reader :=
  match _hNext : reader.nextToken with
  | (token, after) =>
      if _hKind : token.kind.isEof then
        ([], after)
      else
        let (listed, last) := after.drain
        (token :: listed, last)
termination_by reader.left
decreasing_by
  exact left_nextToken_lt _hNext
    (Bool.eq_false_iff.mpr _hKind)

/- A loop that stops at the end token. -/
theorem drain_eq
    (reader : Reader) :
    reader.drain =
      if reader.nextToken.1.kind.isEof then
        ([], reader.nextToken.2)
      else
        (reader.nextToken.1 :: reader.nextToken.2.drain.1,
          reader.nextToken.2.drain.2) := by
  rw [drain]
  split
  rename_i token after hNext
  rw [hNext]
  rfl

------------------------------------------------------------
-- The Cursor of a Reader
------------------------------------------------------------

/- The place in the source at which a reader is. -/
def cursor
    (reader : Reader) : Cursor :=
  ⟨reader.source, reader.position,
    reader.source.drop reader.position⟩

end Reader

end Scan

end LetLang

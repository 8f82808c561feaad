import LetLang.Proofs.Scan.Decomposition
import LetLang.Scan.Reader

/-
  What a reader reads is what stands in the source.

  A reader tracks a cursor: it is at the cursor's place, the
  next place is the one to be read, and the character under
  examination is the one there. Every read keeps this, and
  all that a reader does are reads. So each of its loops is
  the removal of a run from the text ahead, by induction on
  the loop, and a token that it finds with a look at one
  character or two is the token that the text ahead starts
  with. Whether the last character has been passed is told
  by the kind alike for all characters, since no symbol has
  the kind of a run.

  Key definitions include:
    * `Scan.Reader.Tracks`
    * `Scan.Reader.ReadsAs`

  Main declarations:
    * `Scan.Reader.Tracks.readChar`
    * `Scan.Reader.Tracks.readRun`
    * `Scan.Reader.Tracks.nextToken`
    * `Scan.Reader.Tracks.drain`
    * `Scan.Reader.tokenize_eq_drain`
-/

namespace LetLang

namespace Scan

open Text

------------------------------------------------------------
-- Reading at a Cursor
------------------------------------------------------------

namespace Cursor

variable
  {cursor : Cursor}
  {p : Char → Bool}
  {c : Char}
  {text : List Char}

theorem current_of_ahead
    (hAhead : cursor.ahead = c :: text) :
    cursor.current = some c ∧ cursor.peek = text.head? := by
  unfold current peek
  rw [hAhead]
  exact ⟨rfl, rfl⟩

theorem ahead_of_current
    (h : cursor.current = some c) :
    ∃ text, cursor.ahead = c :: text :=
  List.head?_eq_some_iff.mp h

/- A run that starts with a character goes on behind it. -/
theorem takeRun_of_pos
    (hCurrent : cursor.current = some c)
    (hClass : p c = true) :
    (cursor.takeRun p).2 =
      ((cursor.advance 1).takeRun p).2 := by
  rcases ahead_of_current hCurrent with ⟨text, hAhead⟩
  have hBehind : (cursor.advance 1).ahead = text := by
    rw [ahead_advance, hAhead, List.drop_one, List.tail_cons]
  unfold takeRun
  dsimp only
  rw [hBehind, advance_advance, hAhead,
    List.takeWhile_cons_of_pos hClass, List.length_cons,
    Nat.add_comm]

/- Where no character of its class is, a run is empty. -/
theorem takeRun_of_neg
    (h : ∀ c, cursor.current = some c → p c = false) :
    (cursor.takeRun p).2 = cursor := by
  have hRun : cursor.ahead.takeWhile p = [] := by
    cases hAhead : cursor.ahead with
    | nil => rfl
    | cons c text =>
        have hClass := h c (current_of_ahead hAhead).1
        rw [List.takeWhile_cons, hClass]
        rfl
  unfold takeRun
  rw [hRun]
  rfl

theorem isSpace_of_skipSpaces
    (hAhead : cursor.skipSpaces.ahead = c :: text) :
    isSpace c = false := by
  have hHead :
      c ∈ (cursor.ahead.dropWhile isSpace).head? := by
    rw [← ahead_skipSpaces, hAhead]
    rfl
  exact head?_dropWhile_eq_false hHead

theorem next_of_nil
    (h : tokens cursor.ahead = []) :
    cursor.next.1 = Token.eof ∧
      tokens cursor.next.2.ahead = [] := by
  have hNext := cursor.next_eq
  rw [h] at hNext
  exact hNext

/- Where tokens are ahead, the first of them is read. -/
theorem next_of_cons
    {token : Token}
    {rest : List Token}
    (h : tokens cursor.ahead = token :: rest) :
    cursor.next.1 = token ∧ token.kind.isEof = false ∧
      tokens cursor.next.2.ahead = rest := by
  have hKind : token.kind ≠ .eof := by
    apply Token.kind_ne_eof_of_mem_tokens
    rw [h]
    exact List.mem_cons_self
  have hNext := cursor.next_eq
  rw [h] at hNext
  refine ⟨hNext.1, ?_, hNext.2⟩
  simpa [Token.Kind.isEof] using hKind

/-
  To read all remaining tokens is to read the next one, and
  then all that remain, until an end token is read.
-/
theorem drain_eq
    (cursor : Cursor) :
    cursor.drain =
      if cursor.next.1.kind.isEof then
        ([], cursor.next.2)
      else
        (cursor.next.1 :: cursor.next.2.drain.1,
          cursor.next.2.drain.2) := by
  unfold drain
  cases hTokens : tokens cursor.ahead with
  | nil =>
      rw [(next_of_nil hTokens).1]
      rfl
  | cons token rest =>
      rcases next_of_cons hTokens with
        ⟨hToken, hKind, hAhead⟩
      rw [hAhead, hToken, hKind]
      rfl

end Cursor

------------------------------------------------------------
-- Tracking
------------------------------------------------------------

namespace Reader

/-
  The reader is at the place of the cursor, with the next
  place to be read and the character there in view.
-/
structure Tracks
    (reader : Reader)
    (cursor : Cursor) : Prop where
  cursor_eq : reader.cursor = cursor
  readPosition_eq :
    reader.readPosition = cursor.readPosition
  current_eq : reader.current = cursor.current

/-
  What is read is what is found at a cursor, and the reader
  tracks the cursor behind it.
-/
structure ReadsAs {α : Type}
    (read : α × Reader)
    (found : α × Cursor) : Prop where
  result_eq : read.1 = found.1
  tracks : read.2.Tracks found.2

theorem readsAs_of_length
    {token : Token}
    {after : Reader}
    {cursor : Cursor}
    {n : Nat}
    (hLength : token.literal.length = n)
    (h : after.Tracks (cursor.advance n)) :
    ReadsAs (token, after)
      (token, cursor.advance token.literal.length) := by
  rw [hLength]
  exact ⟨rfl, h⟩

/- A text is entered by its first character. -/
theorem tracks_ofSource
    (source : String) :
    (ofSource source).Tracks (Cursor.ofSource source) := by
  refine ⟨rfl, rfl, ?_⟩
  exact List.head?_eq_getElem?.symm

namespace Tracks

variable
  {reader : Reader}
  {cursor : Cursor}
  {c : Char}
  {text : List Char}

theorem position_eq
    (h : reader.Tracks cursor) :
    reader.position = cursor.position :=
  congrArg Cursor.position h.cursor_eq

theorem ahead_eq
    (h : reader.Tracks cursor) :
    reader.source.drop reader.position = cursor.ahead :=
  congrArg Cursor.ahead h.cursor_eq

/- To read a character is to move by one. -/
theorem readChar
    (h : reader.Tracks cursor) :
    reader.readChar.Tracks (cursor.advance 1) := by
  rcases h with ⟨rfl, hRead, -⟩
  have hNext : reader.readPosition = reader.position + 1 :=
    hRead
  constructor
  · simp [Reader.cursor, Reader.readChar, Cursor.advance,
      hNext]
  · simp [Reader.readChar, Reader.cursor,
      Cursor.readPosition, hNext]
  · simp [Reader.readChar, Reader.cursor, Cursor.current,
      hNext, List.head?_drop]

theorem peekChar_eq
    (h : reader.Tracks cursor) :
    reader.peekChar = cursor.peek := by
  unfold peekChar Cursor.peek
  rw [h.readPosition_eq, ← h.ahead_eq, List.tail_drop,
    List.head?_drop, h.position_eq, Cursor.readPosition]

------------------------------------------------------------
-- Runs
------------------------------------------------------------

/- A loop over a class passes the run of it that is ahead. -/
theorem skipWhile
    (h : reader.Tracks cursor)
    (p : Char → Bool) :
    (reader.skipWhile p).Tracks (cursor.takeRun p).2 := by
  induction reader using Reader.skipWhile.induct p
    generalizing cursor with
  | case1 reader hCurrent =>
      have hNone : cursor.current = none := by
        rw [← h.current_eq, hCurrent]
      rw [skipWhile_of_none hCurrent,
        Cursor.takeRun_of_neg (by simp [hNone])]
      exact h
  | case2 reader c hCurrent hClass ih =>
      have hSome : cursor.current = some c := by
        rw [← h.current_eq, hCurrent]
      rw [skipWhile_of_some hCurrent, if_pos hClass,
        Cursor.takeRun_of_pos hSome hClass]
      exact ih h.readChar
  | case3 reader c hCurrent hClass =>
      have hSome : cursor.current = some c := by
        rw [← h.current_eq, hCurrent]
      have hStop :
          ∀ d, cursor.current = some d → p d = false := by
        intro d hOther
        rw [hSome] at hOther
        cases hOther
        exact Bool.eq_false_iff.mpr hClass
      rw [skipWhile_of_some hCurrent, if_neg hClass,
        Cursor.takeRun_of_neg hStop]
      exact h

/- And its text is the text of that run. -/
theorem readRun
    (h : reader.Tracks cursor)
    (p : Char → Bool) :
    ReadsAs (reader.readRun p) (cursor.takeRun p) := by
  have hAfter := h.skipWhile p
  refine ⟨?_, hAfter⟩
  have hStop :
      (reader.skipWhile p).position =
        reader.position
          + (cursor.ahead.takeWhile p).length := by
    rw [hAfter.position_eq, h.position_eq]
    rfl
  unfold Reader.readRun Cursor.takeRun
  dsimp only
  rw [hStop, List.extract_eq_take_drop, h.ahead_eq,
    Nat.add_sub_cancel_left]
  exact
    (List.prefix_iff_eq_take.mp
      (List.takeWhile_prefix p)).symm

------------------------------------------------------------
-- Tokens
------------------------------------------------------------

theorem passLast_of_isRun
    {token : Token}
    (hKind : isRun token.kind = false)
    (after : Reader) :
    passLast (token, after) = (token, after.readChar) := by
  simp [passLast, hKind]

/- A sign is read with an equals sign that is behind it. -/
theorem readText_of_sign
    (h : reader.Tracks cursor)
    (hAhead : cursor.ahead = c :: text)
    (hSign : c = '=' ∨ c = '!') :
    ReadsAs (passLast reader.readText)
      ((lexeme c text).1,
        cursor.advance
          (lexeme c text).1.literal.length) := by
  rcases Cursor.current_of_ahead hAhead with
    ⟨hCurrent, hPeek⟩
  have hOne := h.readChar
  have hTwo := hOne.readChar
  rw [Cursor.advance_advance] at hTwo
  unfold readText
  rw [h.current_eq, hCurrent, h.peekChar_eq, hPeek]
  dsimp only
  rw [if_pos hSign]
  by_cases hNext : text.head? = some '='
  · rcases List.head?_eq_some_iff.mp hNext with ⟨rest, rfl⟩
    rw [if_pos hNext]
    rcases hSign with rfl | rfl
    · rw [if_pos rfl, passLast_of_isRun rfl]
      exact readsAs_of_length rfl hTwo
    · rw [if_neg (by decide), passLast_of_isRun rfl]
      exact readsAs_of_length rfl hTwo
  · have hHead : ∀ d ∈ text.head?, d ≠ '=' := by
      rintro d hMem rfl
      exact hNext hMem
    rw [if_neg hNext]
    rcases hSign with rfl | rfl
    · rw [lexeme_equalsSign hHead, if_pos rfl,
        passLast_of_isRun rfl]
      exact readsAs_of_length rfl hOne
    · rw [lexeme_exclamationMark hHead,
        if_neg (by decide), passLast_of_isRun rfl]
      exact readsAs_of_length rfl hOne

/- A character that stands alone is passed at last. -/
theorem readText_of_standsAlone
    (h : reader.Tracks cursor)
    (hAhead : cursor.ahead = c :: text)
    (hAlone : standsAlone c = true) :
    ReadsAs (passLast reader.readText)
      (single c, cursor.advance 1) := by
  rcases standsAlone_iff.mp hAlone with
    ⟨hDigit, hLetter, -, hEqual, hBang⟩
  have hText : reader.readText = (single c, reader) := by
    unfold readText single
    rw [h.current_eq, (Cursor.current_of_ahead hAhead).1]
    dsimp only
    rw [if_neg (not_or.mpr ⟨hEqual, hBang⟩), hDigit,
      hLetter]
    cases Token.kindOfSymbol? c with
    | none => rfl
    | some kind => rfl
  rcases kind_single c with ⟨hInt, hWord, -⟩
  have hRun : isRun (single c).kind = false := by
    simp [isRun, hWord, Token.Kind.isInt, hInt]
  rw [hText, passLast_of_isRun hRun]
  exact ⟨rfl, h.readChar⟩

/- A character of a run is no sign and no symbol. -/
theorem readText_of_run
    (h : reader.Tracks cursor)
    (hAhead : cursor.ahead = c :: text)
    (hAlone : standsAlone c = false)
    (hEqual : c ≠ '=')
    (hBang : c ≠ '!') :
    reader.readText =
      if isDigit c then
        (number (reader.readRun isDigit).1,
          (reader.readRun isDigit).2)
      else if isLetter c then
        (word (reader.readRun isLetter).1,
          (reader.readRun isLetter).2)
      else
        (⟨.illegal, String.singleton c⟩, reader) := by
  have hKind : Token.kindOfSymbol? c = none := by
    apply Option.eq_none_iff_forall_ne_some.mpr
    intro kind hSome
    have hSymbol := Token.mem_of_kindOfSymbol? hSome
    rw [(Token.kindOfSymbol?_of_mem hSymbol).1] at hAlone
    cases hAlone
  unfold readText
  rw [h.current_eq, (Cursor.current_of_ahead hAhead).1]
  dsimp only
  rw [if_neg (not_or.mpr ⟨hEqual, hBang⟩), hKind]

/- A run that has been passed stays passed. -/
theorem passLast_readRun
    (h : reader.Tracks cursor)
    (hAhead : cursor.ahead = c :: text)
    {p : Char → Bool}
    (hClass : p c = true)
    {make : List Char → Token}
    (hKind : ∀ run, isRun (make run).kind = true)
    (hLiteral :
      ∀ run, (make run).literal = String.ofList run) :
    ReadsAs
      (passLast
        (make (reader.readRun p).1, (reader.readRun p).2))
      (make (c :: text.takeWhile p),
        cursor.advance
          (make (c :: text.takeWhile p)).literal.length) := by
  rcases h.readRun p with ⟨hRun, hAfter⟩
  unfold Cursor.takeRun at hRun hAfter
  rw [hAhead, List.takeWhile_cons_of_pos hClass] at hRun hAfter
  simp only [passLast, hKind, if_true, hRun]
  refine readsAs_of_length ?_ hAfter
  rw [hLiteral, ← String.length_toList,
    String.toList_ofList]

/-
  Whatever the token is, it is the one that starts with the
  character under examination, and its text is passed.
-/
theorem passLast_readText
    (h : reader.Tracks cursor)
    (hAhead : cursor.ahead = c :: text)
    (hSpace : isSpace c = false) :
    ReadsAs (passLast reader.readText)
      ((lexeme c text).1,
        cursor.advance
          (lexeme c text).1.literal.length) := by
  by_cases hSign : c = '=' ∨ c = '!'
  · exact h.readText_of_sign hAhead hSign
  rcases not_or.mp hSign with ⟨hEqual, hBang⟩
  cases hAlone : standsAlone c with
  | true =>
      have hReads := h.readText_of_standsAlone hAhead hAlone
      rw [lexeme_of_standsAlone hAlone]
      simpa [single] using hReads
  | false =>
      rw [h.readText_of_run hAhead hAlone hEqual hBang]
      unfold lexeme
      cases hDigit : isDigit c with
      | true =>
          exact h.passLast_readRun hAhead hDigit
            (fun run => rfl) (fun run => rfl)
      | false =>
          have hLetter : isLetter c = true := by
            simpa [standsAlone, hDigit, hSpace, hEqual,
              hBang] using hAlone
          have hWord
              (run : List Char) :
              isRun (word run).kind = true := by
            simp [isRun, word, Token.isWordLike_kindOfWord]
          rw [hLetter]
          exact h.passLast_readRun hAhead hLetter hWord
            (fun run => rfl)

/- So a token is read alike in either way. -/
theorem nextToken
    (h : reader.Tracks cursor) :
    ReadsAs reader.nextToken cursor.next := by
  have hSpaces :
      reader.skipSpaces.Tracks cursor.skipSpaces :=
    h.skipWhile isSpace
  unfold Reader.nextToken Cursor.next
  dsimp only
  cases hAhead : cursor.skipSpaces.ahead with
  | nil =>
      have hCurrent :
          reader.skipSpaces.current = none := by
        rw [hSpaces.current_eq]
        exact List.head?_eq_none_iff.mpr hAhead
      unfold readText
      rw [hCurrent]
      exact ⟨rfl, hSpaces.readChar⟩
  | cons c text =>
      have hSpace : isSpace c = false :=
        Cursor.isSpace_of_skipSpaces hAhead
      exact hSpaces.passLast_readText hAhead hSpace

/- And so are all that remain. -/
theorem drain
    (h : reader.Tracks cursor) :
    ReadsAs reader.drain cursor.drain := by
  induction hTokens : tokens cursor.ahead
    generalizing reader cursor with
  | nil =>
      rcases h.nextToken with ⟨hToken, hAfter⟩
      have hEof := (Cursor.next_of_nil hTokens).1
      rw [Reader.drain_eq, Cursor.drain_eq, hToken, hEof]
      exact ⟨rfl, hAfter⟩
  | cons token rest ih =>
      rcases h.nextToken with ⟨hToken, hAfter⟩
      rcases Cursor.next_of_cons hTokens with
        ⟨hFirst, hKind, hAhead⟩
      rcases ih hAfter hAhead with ⟨hListed, hLast⟩
      rw [Reader.drain_eq, Cursor.drain_eq, hToken, hFirst,
        hKind, hListed]
      exact ⟨rfl, hLast⟩

end Tracks

/-
  The tokens of a source text are those that a reader lists
  from its start, and the one that it reads after them.
-/
theorem tokenize_eq_drain
    (source : String) :
    let (listed, after) := (ofSource source).drain
    tokenize source = listed ++ [after.nextToken.1] := by
  rcases (tracks_ofSource source).drain with
    ⟨hListed, hAfter⟩
  have hNil :
      tokens (Cursor.ofSource source).drain.2.ahead = [] := by
    unfold Cursor.drain
    rw [Cursor.tokens_skip]
    exact List.drop_of_length_le (Nat.le_succ _)
  have hLast := hAfter.nextToken.result_eq
  rw [(Cursor.next_of_nil hNil).1] at hLast
  dsimp only
  rw [hListed, hLast]
  rfl

end Reader

end Scan

end LetLang

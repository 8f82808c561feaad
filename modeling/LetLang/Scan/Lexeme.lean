import LetLang.Text.CharClass
import LetLang.Token.Basic
import LetLang.Token.Table

/-
  Scanning: how a text splits into tokens.

  A token starts at the first character that is not a space
  and is as long as its class allows. Words and numbers are
  runs; the equals sign and the exclamation mark take an
  equals sign that follows them; every other character is a
  token by itself, an illegal one if it has no meaning.

  Key definitions include:
    * `Scan.lexeme`
    * `Scan.first?`
    * `Scan.tokens`
    * `Scan.tokenize`

  Main declarations:
    * `Scan.first?_length_lt`: a token takes at least one
      character, so scanning ends
-/

namespace LetLang

namespace Scan

open Text

------------------------------------------------------------
-- One Token
------------------------------------------------------------

/-
  A token of one character, for a character that does not
  start a longer one.
-/
def single
    (c : Char) : Token :=
  ⟨(Token.kindOfSymbol? c).getD .illegal,
    String.singleton c⟩

/- The token of a run of digits. -/
def number
    (run : List Char) : Token :=
  ⟨.int, String.ofList run⟩

/- The token of a run of letters. -/
def word
    (run : List Char) : Token :=
  ⟨Token.kindOfWord (String.ofList run),
    String.ofList run⟩

/-
  The token that begins with a character, which is not a
  space, and the text after that token.
-/
def lexeme
    (c : Char)
    (text : List Char) : Token × List Char :=
  if isDigit c then
    (number (c :: text.takeWhile isDigit),
      text.dropWhile isDigit)
  else if isLetter c then
    (word (c :: text.takeWhile isLetter),
      text.dropWhile isLetter)
  else
    match c, text with
    | '=', '=' :: rest => (⟨.equal, "=="⟩, rest)
    | '!', '=' :: rest => (⟨.notEqual, "!="⟩, rest)
    | '=', _ => (⟨.assign, "="⟩, text)
    | '!', _ => (⟨.bang, "!"⟩, text)
    | _, _ => (single c, text)

/-
  The first token of a text and the text after it. There is
  none when only spaces are left.
-/
def first?
    (text : List Char) : Option (Token × List Char) :=
  match text.dropWhile isSpace with
  | [] => none
  | c :: rest => some (lexeme c rest)

------------------------------------------------------------
-- Nothing Is Lost
------------------------------------------------------------

/-
  A token's text and what follows it are the text that it
  was scanned from.
-/
theorem lexeme_append
    (c : Char)
    (text : List Char) :
    (lexeme c text).1.literal.toList
      ++ (lexeme c text).2 = c :: text := by
  unfold lexeme
  split
  · simp [number, List.takeWhile_append_dropWhile]
  · split
    · simp [word, List.takeWhile_append_dropWhile]
    · split <;> simp [single]

------------------------------------------------------------
-- Progress
------------------------------------------------------------

theorem length_dropWhile_le
    (p : Char → Bool)
    (text : List Char) :
    (text.dropWhile p).length ≤ text.length :=
  (List.dropWhile_suffix p).length_le

theorem length_lexeme_le
    (c : Char)
    (text : List Char) :
    (lexeme c text).2.length ≤ text.length := by
  unfold lexeme
  split
  · exact length_dropWhile_le _ _
  · split
    · exact length_dropWhile_le _ _
    · split <;> simp

/- A token takes at least one character. -/
theorem first?_length_lt
    {text rest : List Char}
    {token : Token}
    (h : first? text = some (token, rest)) :
    rest.length < text.length := by
  unfold first? at h
  split at h
  · simp at h
  · rename_i c after hDrop
    have hLexeme : (lexeme c after).2 = rest := by
      rw [Option.some.inj h]
    have hAfter : after.length < text.length := by
      have hLe := length_dropWhile_le isSpace text
      rw [hDrop, List.length_cons] at hLe
      exact hLe
    have hRest := length_lexeme_le c after
    rw [hLexeme] at hRest
    exact Nat.lt_of_le_of_lt hRest hAfter

------------------------------------------------------------
-- All Tokens
------------------------------------------------------------

/- The tokens of a text, without a closing token. -/
def tokens
    (text : List Char) : List Token :=
  match _h : first? text with
  | none => []
  | some (token, rest) => token :: tokens rest
termination_by text.length
decreasing_by exact first?_length_lt _h

theorem tokens_of_none
    {text : List Char}
    (h : first? text = none) :
    tokens text = [] := by
  rw [tokens]
  split
  · rfl
  · rename_i hSome
    simp [h] at hSome

/-
  The tokens of a text are its first token and the tokens of
  what follows.
-/
theorem tokens_of_some
    {text rest : List Char}
    {token : Token}
    (h : first? text = some (token, rest)) :
    tokens text = token :: tokens rest := by
  rw [tokens]
  split
  · rename_i hNone
    simp [h] at hNone
  · rename_i hSome
    rw [h] at hSome
    cases hSome
    rfl

/- The tokens of a source text, closed by the end token. -/
def tokenize
    (source : String) : List Token :=
  tokens source.toList ++ [Token.eof]

end Scan

end LetLang

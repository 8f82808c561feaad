import LetLang.Token.Kind
import LetLang.Text.Quoted

/-
  Tokens: a kind with the text it was scanned from.

  Kind and text are independent. The scanner pairs them
  consistently, but a token made by hand may carry any text.

  Key definitions include:
    * `Token`
    * `Token.eof`
    * `Token.describe`
    * `Token.display`
-/

namespace LetLang

/- A lexical category and its text. -/
structure Token where
  kind : Token.Kind
  literal : String
  deriving DecidableEq, Repr

namespace Token

/- The token that closes a token sequence; its text is empty. -/
def eof : Token :=
  ⟨.eof, ""⟩

/- The short form of a token, for debugging. -/
def describe
    (token : Token) : String :=
  "Token(" ++ token.kind.display ++ ", "
    ++ token.literal ++ ")"

/- The form in which token dumps list a token. -/
def display
    (token : Token) : String :=
  "[Type:" ++ token.kind.display ++ ", Literal: "
    ++ token.literal ++ "]"

/-
  The refusal to change a field of a token. No field can be
  changed, whatever its name.
-/
def immutableMessage
    (field : String) : String :=
  "Token is immutable, cannot set " ++ Text.quoted field

end Token

end LetLang

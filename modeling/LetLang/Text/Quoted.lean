import LetLang.Text.Hex
import LetLang.Text.Printable

/-
  Quoted text: one line of printable characters between
  quotes that stands for any text.

  The quote is the apostrophe, unless the text holds an
  apostrophe and no quotation mark. The backslash, the quote
  in use and everything that is not printable are escaped.

  Key definitions include:
    * `Text.quoteFor`
    * `Text.escape`
    * `Text.quoted`
-/

namespace LetLang

namespace Text

/- The preferred quote. -/
def apostrophe : Char :=
  Char.ofNat 39

/- The quote for a text that holds only apostrophes. -/
def quotationMark : Char :=
  Char.ofNat 34

/- The quote that is put around a text. -/
def quoteFor
    (text : List Char) : Char :=
  if text.contains apostrophe &&
      !text.contains quotationMark then
    quotationMark
  else
    apostrophe

/-
  The escape of a character by its code point, in the
  shortest of the three numeric forms.
-/
def escapeCode
    (n : Nat) : List Char :=
  if n < 0x100 then
    '\\' :: 'x' :: hex 2 n
  else if n < 0x10000 then
    '\\' :: 'u' :: hex 4 n
  else
    '\\' :: 'U' :: hex 8 n

/- How one character is written between given quotes. -/
def escape
    (quote : Char)
    (c : Char) : List Char :=
  if c = quote ∨ c = '\\' then
    ['\\', c]
  else if c = '\n' then
    ['\\', 'n']
  else if c = '\r' then
    ['\\', 'r']
  else if c = '\t' then
    ['\\', 't']
  else if isPrintable c then
    [c]
  else
    escapeCode c.toNat

/- A text between quotes. -/
def quoted
    (text : String) : String :=
  let quote := quoteFor text.toList
  String.ofList
    (quote :: text.toList.flatMap (escape quote) ++ [quote])

end Text

end LetLang

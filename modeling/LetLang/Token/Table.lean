import LetLang.Token.Kind

/-
  The fixed spellings of the language: its reserved words
  and the characters that are a token by themselves.

  Key definitions include:
    * `Token.reserved`
    * `Token.kindOfWord`
    * `Token.symbols`
    * `Token.kindOfSymbol?`
-/

namespace LetLang

namespace Token

------------------------------------------------------------
-- Reserved Words
------------------------------------------------------------

/- The reserved words and their kinds. -/
def reserved : List (String × Kind) :=
  [("true", .trueWord), ("false", .falseWord),
    ("let", .letWord), ("fn", .fnWord), ("if", .ifWord),
    ("else", .elseWord), ("return", .returnWord)]

/- The kind of a word: an identifier unless it is reserved. -/
def kindOfWord
    (word : String) : Kind :=
  (reserved.lookup word).getD .ident

/- What all kinds of a table share, its answers share. -/
theorem lookup_getD_of_forall
    {α : Type} [BEq α]
    {P : Kind → Prop}
    {table : List (α × Kind)}
    {other : Kind}
    (hTable : ∀ row ∈ table, P row.2)
    (hOther : P other)
    (key : α) :
    P ((table.lookup key).getD other) := by
  induction table with
  | nil => exact hOther
  | cons row table ih =>
      rw [List.lookup_cons]
      cases key == row.1 with
      | true => exact hTable row (by simp)
      | false =>
          exact ih (fun r hr => hTable r (by simp [hr]))

/- A word is never an operator, a number or a mark. -/
theorem isWordLike_kindOfWord
    (word : String) :
    (kindOfWord word).isWordLike = true :=
  lookup_getD_of_forall
    (P := fun kind => kind.isWordLike = true)
    (by decide) rfl word

------------------------------------------------------------
-- Symbols
------------------------------------------------------------

/-
  The characters that are a token wherever they stand. The
  equals sign and the exclamation mark are not among them,
  because the character after them matters.
-/
def symbols : List (Char × Kind) :=
  [('+', .plus), ('-', .minus), ('*', .asterisk),
    ('/', .slash), ('<', .lessThan), ('>', .greaterThan),
    ('(', .lparen), (')', .rparen), ('{', .lbrace),
    ('}', .rbrace), (',', .comma), (';', .semicolon)]

/- The kind of a character that is a token by itself. -/
def kindOfSymbol?
    (c : Char) : Option Kind :=
  symbols.lookup c

end Token

end LetLang

import LetLang.Text.Quoted

/-
  Token kinds: the closed list of lexical categories of the
  language, with the two names that each of them carries.

  The *label* is the upper-case name under which a kind is
  tabulated; the *display name* is the word that token dumps
  and diagnostics print. Both name a kind uniquely, so both
  can be read back.

  Key definitions include:
    * `Token.Kind`
    * `Token.Kind.all`
    * `Token.Kind.label`
    * `Token.Kind.display`
    * `Token.Kind.byLabel`
    * `Token.Kind.byDisplay`
    * `Token.Kind.isWordLike`
-/

namespace LetLang

------------------------------------------------------------
-- Kinds
------------------------------------------------------------

/- The lexical categories, operators first. -/
inductive Token.Kind where
  | plus
  | minus
  | asterisk
  | slash
  | assign
  | bang
  | lessThan
  | greaterThan
  | equal
  | notEqual
  | comma
  | semicolon
  | lparen
  | rparen
  | lbrace
  | rbrace
  | trueWord
  | falseWord
  | letWord
  | fnWord
  | ifWord
  | elseWord
  | returnWord
  | int
  | ident
  | eof
  | illegal
  deriving DecidableEq, Repr, Inhabited

namespace Token.Kind

/- Every kind, in the order in which tables list them. -/
def all : List Kind :=
  [.plus, .minus, .asterisk, .slash, .assign, .bang,
    .lessThan, .greaterThan, .equal, .notEqual, .comma,
    .semicolon, .lparen, .rparen, .lbrace, .rbrace,
    .trueWord, .falseWord, .letWord, .fnWord, .ifWord,
    .elseWord, .returnWord, .int, .ident, .eof, .illegal]

theorem mem_all
    (kind : Kind) :
    kind ∈ all := by
  cases kind <;> decide

------------------------------------------------------------
-- Names
------------------------------------------------------------

/- The name under which a kind is tabulated. -/
def label : Kind → String
  | .plus => "PLUS"
  | .minus => "MINUS"
  | .asterisk => "ASTERISK"
  | .slash => "SLASH"
  | .assign => "ASSIGN"
  | .bang => "BANG"
  | .lessThan => "LESS_THAN"
  | .greaterThan => "GREATER_THAN"
  | .equal => "EQUAL"
  | .notEqual => "NOT_EQUAL"
  | .comma => "COMMA"
  | .semicolon => "SEMICOLON"
  | .lparen => "LPAREN"
  | .rparen => "RPAREN"
  | .lbrace => "LBRACE"
  | .rbrace => "RBRACE"
  | .trueWord => "TRUE"
  | .falseWord => "FALSE"
  | .letWord => "LET"
  | .fnWord => "FUNCTION"
  | .ifWord => "IF"
  | .elseWord => "ELSE"
  | .returnWord => "RETURN"
  | .int => "INT"
  | .ident => "IDENT"
  | .eof => "EOF"
  | .illegal => "ILLEGAL"

/- The word that dumps and diagnostics print for a kind. -/
def display : Kind → String
  | .plus => "Plus"
  | .minus => "Minus"
  | .asterisk => "Asterisk"
  | .slash => "Slash"
  | .assign => "Assign"
  | .bang => "Bang"
  | .lessThan => "LessThan"
  | .greaterThan => "GreaterThan"
  | .equal => "Equal"
  | .notEqual => "NotEqual"
  | .comma => "Comma"
  | .semicolon => "Semicolon"
  | .lparen => "LParen"
  | .rparen => "RParen"
  | .lbrace => "LBrace"
  | .rbrace => "RBrace"
  | .trueWord => "True"
  | .falseWord => "False"
  | .letWord => "Let"
  | .fnWord => "Function"
  | .ifWord => "If"
  | .elseWord => "Else"
  | .returnWord => "Return"
  | .int => "Int"
  | .ident => "Ident"
  | .eof => "EOF"
  | .illegal => "Illegal"

/- The kind tabulated under a name. -/
def ofLabel?
    (name : String) : Option Kind :=
  all.find? (fun kind => kind.label == name)

/- The kind printed as a given word. -/
def ofDisplay?
    (word : String) : Option Kind :=
  all.find? (fun kind => kind.display == word)

theorem ofLabel?_label
    (kind : Kind) :
    ofLabel? kind.label = some kind := by
  cases kind <;> decide

theorem ofDisplay?_display
    (kind : Kind) :
    ofDisplay? kind.display = some kind := by
  cases kind <;> decide

theorem display_inj
    {a b : Kind}
    (h : a.display = b.display) :
    a = b := by
  have hRead := ofDisplay?_display a
  rw [h, ofDisplay?_display b] at hRead
  exact (Option.some.inj hRead).symm

------------------------------------------------------------
-- Unknown Names
------------------------------------------------------------

/- A name that no kind has, by the way it was looked up. -/
inductive Unknown where
  | label (name : String)
  | display (word : String)
  deriving DecidableEq, Repr

namespace Unknown

/- The report on an unknown name. -/
def message : Unknown → String
  | .label name => Text.quoted name
  | .display word =>
      Text.quoted word ++ " is not a valid TokenType"

end Unknown

/- The kind with a given label, or the refusal of it. -/
def byLabel
    (name : String) : Except Unknown Kind :=
  match ofLabel? name with
  | some kind => .ok kind
  | none => .error (.label name)

/- The kind with a given display name, or the refusal. -/
def byDisplay
    (word : String) : Except Unknown Kind :=
  match ofDisplay? word with
  | some kind => .ok kind
  | none => .error (.display word)

------------------------------------------------------------
-- Classes of Kinds
------------------------------------------------------------

/-
  The kinds that a run of letters can have: the reserved
  words and the identifiers.
-/
def isWordLike : Kind → Bool
  | .trueWord => true
  | .falseWord => true
  | .letWord => true
  | .fnWord => true
  | .ifWord => true
  | .elseWord => true
  | .returnWord => true
  | .ident => true
  | _ => false

/- The kind of integer literals. -/
def isInt
    (kind : Kind) : Bool :=
  kind == .int

/- The kind of the token that closes a token sequence. -/
def isEof
    (kind : Kind) : Bool :=
  kind == .eof

end Token.Kind

end LetLang

import LetLang.Diagnostic.Fault

/-
  Parse errors: what can be wrong with a source text, and
  what each error says.

  Key definitions include:
    * `StatementForm`
    * `OperatorForm`
    * `ParseError`
    * `ParseError.message`
    * `Problem`
-/

namespace LetLang

------------------------------------------------------------
-- Forms
------------------------------------------------------------

/- The forms of statements. -/
inductive StatementForm where
  | binding
  | result
  | expression
  deriving DecidableEq, Repr

namespace StatementForm

/- Every form of statement. -/
def all : List StatementForm :=
  [.binding, .result, .expression]

/- The name under which a form is tabulated. -/
def label : StatementForm → String
  | .binding => "LET"
  | .result => "RETURN"
  | .expression => "EXPRESSION"

/- The words for a form in a message. -/
def display : StatementForm → String
  | .binding => "LetStatement"
  | .result => "ReturnStatement"
  | .expression => "ExpressionStatement"

/- The form tabulated under a name. -/
def ofLabel?
    (name : String) : Option StatementForm :=
  all.find? (fun form => form.label == name)

end StatementForm

/- The forms of operators: with one operand or two. -/
inductive OperatorForm where
  | unary
  | binary
  deriving DecidableEq, Repr

namespace OperatorForm

/- Every form of operator. -/
def all : List OperatorForm :=
  [.unary, .binary]

/- The name under which a form is tabulated. -/
def label : OperatorForm → String
  | .unary => "PREFIX"
  | .binary => "INFIX"

/- The words for a form in a message. -/
def display : OperatorForm → String
  | .unary => "prefix"
  | .binary => "infix expression"

/- The form tabulated under a name. -/
def ofLabel?
    (name : String) : Option OperatorForm :=
  all.find? (fun form => form.label == name)

end OperatorForm

------------------------------------------------------------
-- Errors
------------------------------------------------------------

/-
  A recoverable error. A remark is an error of no particular
  class with any number of texts.
-/
inductive ParseError where
  | missingToken
  | unexpectedToken
      (expected : Token.Kind)
      (found : Option Token)
  | noOperand (token : Token)
  | statementFailed (form : StatementForm)
  | operandFailed (form : OperatorForm)
  | remark (texts : List String)
  deriving DecidableEq, Repr

namespace ParseError

/-
  The text of a remark: a single text stands for itself,
  more are listed in quotes.
-/
def remarkText : List String → String
  | [] => ""
  | [text] => text
  | texts =>
      "(" ++ ", ".intercalate (texts.map Text.quoted)
        ++ ")"

/- What an error says. -/
def message : ParseError → String
  | .missingToken =>
      "expected token to be exist. got None instead."
  | .unexpectedToken expected found =>
      "expected next token to be " ++ expected.display
        ++ ", got "
        ++ (found.map (·.kind.display)).getD "None"
        ++ " instead."
  | .noOperand token =>
      "no prefix parse for " ++ token.kind.display ++ "."
  | .statementFailed form =>
      "failed to parse " ++ form.display ++ "."
  | .operandFailed form =>
      "failed to parse " ++ form.display ++ "."
  | .remark texts => remarkText texts

end ParseError

------------------------------------------------------------
-- Comparison
------------------------------------------------------------

/- A problem of either sort: an error, or a fault. -/
inductive Problem where
  | ofError (error : ParseError)
  | ofFault (fault : Fault)
  deriving DecidableEq, Repr

namespace Problem

/-
  Whether two separate problems are equal. Errors are equal
  when they say the same of the same tokens; a fault is
  equal to nothing but itself.
-/
def same : Problem → Problem → Bool
  | .ofError a, .ofError b => a == b
  | _, _ => false

/- What a problem says. -/
def message : Problem → String
  | .ofError error => error.message
  | .ofFault fault => fault.message

end Problem

end LetLang

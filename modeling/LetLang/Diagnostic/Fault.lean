import LetLang.Numeral
import LetLang.Text.Quoted
import LetLang.Token.Basic

/-
  Faults: tokens that cannot be what their kind promises. A
  fault ends a parse; it is not a diagnostic of the source.

  Key definitions include:
    * `Fault`
    * `Fault.ofRefusal`
    * `Fault.message`
-/

namespace LetLang

/-
  Why a token is unusable: its text contradicts its kind, or
  it is a run of digits too long to be converted.
-/
inductive Fault where
  | contradiction (token : Token) (reason : String)
  | digitLimit (count : Nat)
  deriving DecidableEq, Repr

namespace Fault

/- The fault of a token whose numeral was refused. -/
def ofRefusal
    (token : Token) : Numeral.Refusal → Fault
  | .notDigits => .contradiction token "not a digit run"
  | .tooManyDigits count => .digitLimit count
  | .outOfRange =>
      .contradiction token "out of 64-bit range"

/- The report on a fault. -/
def message : Fault → String
  | .contradiction token reason =>
      "could not parse " ++ Text.quoted token.literal
        ++ " as " ++ token.kind.display ++ ": " ++ reason
  | .digitLimit count =>
      "Exceeds the limit (" ++ toString Numeral.maxDigits
        ++ " digits) for integer string conversion: "
        ++ "value has " ++ toString count ++ " digits; "
        ++ "use sys.set_int_max_str_digits() "
        ++ "to increase the limit"

end Fault

/- The value of an integer token, if its text has one. -/
def Token.integer
    (token : Token) : Except Fault Nat :=
  match Numeral.read token.literal with
  | .ok value => .ok value
  | .error refusal => .error (Fault.ofRefusal token refusal)

end LetLang

import LetLang.Text.CharClass

/-
  Reading decimal numerals.

  A numeral is a non-empty run of decimal digits; leading
  zeros are allowed. It is refused when it has more digits
  than are converted at all, and when its value does not fit
  into a signed word of 64 bits.

  Key definitions include:
    * `Numeral.maxDigits`
    * `Numeral.largest`
    * `Numeral.smallest`
    * `Numeral.Refusal`
    * `Numeral.value`
    * `Numeral.read`
-/

namespace LetLang

namespace Numeral

/- The longest run of digits that is converted. -/
def maxDigits : Nat :=
  4300

/- The largest signed word of 64 bits, below 2 ^ 63. -/
def largest : Int :=
  9223372036854775807

/- The smallest signed word of 64 bits, -2 ^ 63. -/
def smallest : Int :=
  -9223372036854775808

/- Why a text is not read as a numeral. -/
inductive Refusal where
  | notDigits
  | tooManyDigits (count : Nat)
  | outOfRange
  deriving DecidableEq, Repr

/- The number that a digit stands for. -/
def digitValue
    (c : Char) : Nat :=
  c.toNat - '0'.toNat

/- The value of a run of digits in base ten. -/
def value
    (digits : List Char) : Nat :=
  digits.foldl (fun n c => 10 * n + digitValue c) 0

/-
  Read a numeral. The digits are counted before their value
  is looked at, so a long run of zeros is refused as well.
-/
def read
    (text : String) : Except Refusal Nat :=
  if Text.isDigits text then
    if text.length ≤ maxDigits then
      if (value text.toList : Int) ≤ largest then
        .ok (value text.toList)
      else
        .error .outOfRange
    else
      .error (.tooManyDigits text.length)
  else
    .error .notDigits

/- A numeral that is read fits into a signed word. -/
theorem le_largest_of_read
    {text : String}
    {n : Nat}
    (h : read text = .ok n) :
    (n : Int) ≤ largest := by
  unfold read at h
  split at h
  · split at h
    · split at h
      · rename_i hFits
        cases h
        exact hFits
      · simp at h
    · simp at h
  · simp at h

end Numeral

end LetLang

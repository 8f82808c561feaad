/-
  Fixed-width hexadecimal numerals in lower case.

  Key definitions include:
    * `Text.hexDigit`
    * `Text.hex`
-/

namespace LetLang

namespace Text

/- The lower-case hexadecimal digit of a number below 16. -/
def hexDigit
    (n : Nat) : Char :=
  if n < 10 then
    Char.ofNat ('0'.toNat + n)
  else
    Char.ofNat ('a'.toNat + (n - 10))

/-
  The last `width` hexadecimal digits of a number, padded
  with zeros on the left.
-/
def hex
    (width : Nat)
    (n : Nat) : List Char :=
  match width with
  | 0 => []
  | width + 1 => hex width (n / 16) ++ [hexDigit (n % 16)]

theorem length_hex
    (width : Nat)
    (n : Nat) :
    (hex width n).length = width := by
  induction width generalizing n with
  | zero => rfl
  | succ width ih => simp [hex, ih]

end Text

end LetLang

/-
  Line ends: a carriage return, alone or before a line feed,
  is read as one line feed.

  Key definitions include:
    * `Text.foldNewlines`
    * `Text.withoutLineEnd`
-/

namespace LetLang

namespace Text

/-
  Replace each carriage return, with the line feed after it
  if there is one, by a line feed.
-/
def foldNewlines : List Char → List Char
  | [] => []
  | '\r' :: '\n' :: text => '\n' :: foldNewlines text
  | c :: text =>
      (if c = '\r' then '\n' else c) :: foldNewlines text

/- No carriage return is left. -/
theorem not_mem_foldNewlines
    (text : List Char) :
    '\r' ∉ foldNewlines text := by
  fun_induction foldNewlines text with
  | case1 => simp
  | case2 text ih => simp [ih]
  | case3 c text _ ih =>
      by_cases h : c = '\r'
      · simp [h, ih]
      · simp [h, ih, Ne.symm h]

/- A text without a line feed at its end. -/
def withoutLineEnd
    (text : List Char) : List Char :=
  if text.getLast? = some '\n' then text.dropLast else text

end Text

end LetLang

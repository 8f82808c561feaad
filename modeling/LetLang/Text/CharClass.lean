/-
  The character classes of the language. All of them lie
  within ASCII; a character beyond it belongs to none.

  Key definitions include:
    * `Text.isLetter`
    * `Text.isDigit`
    * `Text.isSpace`
    * `Text.isLetters`
    * `Text.isDigits`
-/

namespace LetLang

namespace Text

/- An ASCII letter or the underscore. -/
def isLetter
    (c : Char) : Bool :=
  c == '_' || c.isAlpha

/- A decimal digit. -/
def isDigit
    (c : Char) : Bool :=
  c.isDigit

/- The characters that separate tokens. -/
def spaces : List Char :=
  [' ', '\t', '\n', '\r', '\x0c']

/- Whether a character separates tokens. -/
def isSpace
    (c : Char) : Bool :=
  spaces.contains c

/-
  Whether a text counts as a letter: the underscore alone, or
  a non-empty run of ASCII letters.
-/
def isLetters
    (text : String) : Bool :=
  text == "_"
    || (text != "" && text.toList.all Char.isAlpha)

/- Whether a text is a non-empty run of decimal digits. -/
def isDigits
    (text : String) : Bool :=
  text != "" && text.toList.all isDigit

theorem singleton_bne_empty
    (c : Char) :
    (String.singleton c != "") = true := by
  rw [bne_iff_ne, Ne, ← String.toList_inj]
  simp

theorem isLetters_singleton
    (c : Char) :
    isLetters (String.singleton c) = isLetter c := by
  have h :
      (String.singleton c == "_") = (c == '_') := by
    rw [Bool.eq_iff_iff, beq_iff_eq, beq_iff_eq,
      ← String.toList_inj]
    simp
  simp [isLetters, isLetter, h, singleton_bne_empty]

theorem isDigits_singleton
    (c : Char) :
    isDigits (String.singleton c) = isDigit c := by
  simp [isDigits, singleton_bne_empty]

/- In a run of digits there is a digit, and nothing else. -/
theorem isDigits_iff
    {text : String} :
    isDigits text = true ↔
      text.toList ≠ [] ∧
        ∀ c ∈ text.toList, isDigit c = true := by
  unfold isDigits
  rw [Bool.and_eq_true, List.all_eq_true, bne_iff_ne, Ne,
    ← String.toList_inj, String.toList_empty]

end Text

end LetLang

import LetLang.Text.Ranges

/-
  Blank characters and the trimming of lines.

  A character is blank when it is a space separator or
  separates lines, segments or paragraphs; the zero-width
  space and the byte order mark are not blank.

  Key definitions include:
    * `Text.isBlank`
    * `Text.trim`
-/

namespace LetLang

namespace Text

/- The blank code points, as closed ascending ranges. -/
def blankRanges : List (Nat × Nat) :=
  [(0x9, 0xd), (0x1c, 0x20), (0x85, 0x85), (0xa0, 0xa0),
    (0x1680, 0x1680), (0x2000, 0x200a), (0x2028, 0x2029),
    (0x202f, 0x202f), (0x205f, 0x205f), (0x3000, 0x3000)]

/- Whether a character is blank. -/
def isBlank
    (c : Char) : Bool :=
  inRanges blankRanges c

/- A text without the blanks at its two ends. -/
def trim
    (text : List Char) : List Char :=
  ((text.dropWhile isBlank).reverse.dropWhile
    isBlank).reverse

theorem isBlank_of_isWhitespace
    {c : Char}
    (h : c.isWhitespace = true) :
    isBlank c = true := by
  simp only [Char.isWhitespace, Bool.or_eq_true,
    decide_eq_true_eq] at h
  rcases h with ((h | h) | h) | h <;> subst h <;> decide

/- Trimming leaves nothing of a text of blanks. -/
theorem trim_eq_nil
    {text : List Char}
    (h : ∀ c ∈ text, isBlank c = true) :
    trim text = [] := by
  have hDrop : text.dropWhile isBlank = [] := by
    induction text with
    | nil => rfl
    | cons c text ih =>
        rw [List.dropWhile_cons_of_pos (h c (by simp))]
        exact ih (fun d hd => h d (by simp [hd]))
  simp [trim, hDrop]

end Text

end LetLang

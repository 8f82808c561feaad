import LetLang.Text.Ranges
import LetLang.Text.Unassigned

/-
  Code points that are shown as themselves in quoted text.

  Not printable are the controls, the format characters,
  the private-use code points, every separator but the
  space, and every code point without an assigned character.

  Key definitions include:
    * `Text.hiddenRanges`
    * `Text.isPrintable`
-/

namespace LetLang

namespace Text

/-
  The code points that have no shape of their own, as
  closed ranges in ascending order: controls, format
  characters, separators, surrogates and private use.
-/
def hiddenRanges : List (Nat × Nat) :=
  [(0x0, 0x1f), (0x7f, 0xa0), (0xad, 0xad),
    (0x600, 0x605), (0x61c, 0x61c), (0x6dd, 0x6dd),
    (0x70f, 0x70f), (0x890, 0x891), (0x8e2, 0x8e2),
    (0x1680, 0x1680), (0x180e, 0x180e),
    (0x2000, 0x200f), (0x2028, 0x202f),
    (0x205f, 0x2064), (0x2066, 0x206f),
    (0x3000, 0x3000), (0xd800, 0xf8ff),
    (0xfeff, 0xfeff), (0xfff9, 0xfffb),
    (0x110bd, 0x110bd), (0x110cd, 0x110cd),
    (0x13430, 0x13438), (0x1bca0, 0x1bca3),
    (0x1d173, 0x1d17a), (0xe0001, 0xe0001),
    (0xe0020, 0xe007f), (0xf0000, 0xffffd),
    (0x100000, 0x10fffd)]

/- Whether a character stands for itself in quoted text. -/
def isPrintable
    (c : Char) : Bool :=
  !inRanges hiddenRanges c && !inRanges unassignedRanges c

/- A letter is printable, a gap between letters is not. -/
example :
    isPrintable (Char.ofNat 0x377) = true ∧
      isPrintable (Char.ofNat 0x378) = false := by
  decide +kernel

end Text

end LetLang

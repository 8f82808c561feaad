import LetLang.Diagnostic.Fault

/-
  Numerals that can be read: runs of digits that are not too
  long and whose values fit into a signed word.

  Key definitions include:
    * `Numeral.Fits`

  Main declarations:
    * `Numeral.read_eq_ok_iff`
    * `Token.integer_eq_ok_iff`
    * `Token.exists_fault_iff`
-/

namespace LetLang

namespace Numeral

/- The text is a run of digits that can be read. -/
structure Fits
    (text : String) : Prop where
  isDigits : Text.isDigits text = true
  length_le : text.length ≤ maxDigits
  value_le : (value text.toList : Int) ≤ largest

/- Exactly such texts are read, and to their values. -/
theorem read_eq_ok_iff
    {text : String}
    {n : Nat} :
    read text = .ok n ↔
      Fits text ∧ n = value text.toList := by
  unfold read
  constructor
  · intro h
    split at h
    · rename_i hDigits
      split at h
      · rename_i hLength
        split at h
        · rename_i hValue
          cases h
          exact ⟨⟨hDigits, hLength, hValue⟩, rfl⟩
        · cases h
      · cases h
    · cases h
  · rintro ⟨⟨hDigits, hLength, hValue⟩, rfl⟩
    rw [if_pos hDigits, if_pos hLength, if_pos hValue]

/- A text that is not refused fits. -/
theorem fits_iff
    {text : String} :
    Fits text ↔ ∃ n, read text = .ok n := by
  constructor
  · intro hFits
    exact ⟨_, read_eq_ok_iff.mpr ⟨hFits, rfl⟩⟩
  · rintro ⟨n, hRead⟩
    exact (read_eq_ok_iff.mp hRead).1

instance
    (text : String) :
    Decidable (Fits text) :=
  decidable_of_iff
    (Text.isDigits text = true ∧ text.length ≤ maxDigits ∧
      (value text.toList : Int) ≤ largest)
    ⟨fun h => ⟨h.1, h.2.1, h.2.2⟩,
      fun h => ⟨h.isDigits, h.length_le, h.value_le⟩⟩

end Numeral

namespace Token

/- An integer token has the value of its text if it fits. -/
theorem integer_eq_ok_iff
    {token : Token}
    {n : Nat} :
    token.integer = .ok n ↔
      Numeral.Fits token.literal ∧
        n = Numeral.value token.literal.toList := by
  rw [← Numeral.read_eq_ok_iff]
  unfold integer
  cases Numeral.read token.literal with
  | ok value => simp
  | error refusal => simp

/- It has a fault exactly if its text does not fit. -/
theorem exists_fault_iff
    {token : Token} :
    (∃ fault, token.integer = .error fault) ↔
      ¬ Numeral.Fits token.literal := by
  rw [Numeral.fits_iff]
  unfold integer
  cases Numeral.read token.literal with
  | ok value => simp
  | error refusal => simp

end Token

end LetLang

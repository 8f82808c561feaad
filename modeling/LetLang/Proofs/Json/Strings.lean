import LetLang.Json

/-
  JSON strings can be told from what follows them.

  A character is written as itself, behind a backslash, or
  by its code; which of them it is shows in the first one or
  two characters, and the characters that are written in the
  same way are written differently. So no escape begins
  another one, and as none of them begins with a quotation
  mark, a string ends at the first one that stands where an
  escape could.

  Key definitions include:
    * `Json.shortForms`
    * `Json.EscapedAs`

  Main declarations:
    * `Text.hex_four_inj`
    * `Json.EscapedAs.append_inj`
    * `Json.string_append_inj`
    * `Json.not_mem_string`
-/

namespace LetLang

------------------------------------------------------------
-- Hexadecimal Numerals
------------------------------------------------------------

namespace Text

theorem hexDigit_inj
    {a b : Nat}
    (hA : a < 16)
    (hB : b < 16)
    (h : hexDigit a = hexDigit b) :
    a = b := by
  have hAll :
      ∀ a < 16, ∀ b < 16, hexDigit a = hexDigit b → a = b := by
    decide
  exact hAll a hA b hB h

theorem hex_succ_inj
    {width a b : Nat}
    (h : hex (width + 1) a = hex (width + 1) b) :
    hex width (a / 16) = hex width (b / 16) ∧
      a % 16 = b % 16 := by
  rcases List.append_inj' h rfl with ⟨hFirst, hLast⟩
  refine ⟨hFirst, ?_⟩
  exact
    hexDigit_inj (Nat.mod_lt a (by decide))
      (Nat.mod_lt b (by decide)) (List.singleton_inj.mp hLast)

/- A number below 65536 is known from four digits. -/
theorem hex_four_inj
    {a b : Nat}
    (hA : a < 0x10000)
    (hB : b < 0x10000)
    (h : hex 4 a = hex 4 b) :
    a = b := by
  rcases hex_succ_inj h with ⟨h, hFirst⟩
  rcases hex_succ_inj h with ⟨h, hSecond⟩
  rcases hex_succ_inj h with ⟨h, hThird⟩
  rcases hex_succ_inj h with ⟨-, hFourth⟩
  omega

/- The digits of a numeral are none of the line ends. -/
theorem lineFeed_not_mem_hex
    (width n : Nat) :
    '\n' ∉ hex width n := by
  have hAll : ∀ a < 16, '\n' ≠ hexDigit a := by
    decide
  induction width generalizing n with
  | zero => exact List.not_mem_nil
  | succ width ih =>
      intro hMem
      rcases List.mem_append.mp hMem with hMem | hMem
      · exact ih (n / 16) hMem
      · exact
          hAll (n % 16) (Nat.mod_lt n (by decide))
            (List.mem_singleton.mp hMem)

end Text

------------------------------------------------------------
-- Escapes
------------------------------------------------------------

namespace Json

/- The characters that are written behind a backslash. -/
def shortForms : List (Char × Char) :=
  [('"', '"'), ('\\', '\\'), ('\n', 'n'), ('\r', 'r'),
    ('\t', 't'), ('\x08', 'b'), ('\x0c', 'f')]

/- The ways in which a character is written. -/
inductive EscapedAs
    (c : Char) : List Char → Prop where
  | short
      {letter : Char}
      (hForm : (c, letter) ∈ shortForms) :
      EscapedAs c ['\\', letter]
  | itself
      (hQuote : c ≠ '"')
      (hBackslash : c ≠ '\\')
      (hLow : ' ' ≤ c) :
      EscapedAs c [c]
  | code :
      EscapedAs c (escapeCode c.toNat)

/- Every character is written in one of them. -/
theorem escapedAs
    (c : Char) :
    EscapedAs c (escape c) := by
  by_cases hShort : ∃ letter, (c, letter) ∈ shortForms
  · rcases hShort with ⟨letter, hForm⟩
    have hRows :
        ∀ row ∈ shortForms, escape row.1 = ['\\', row.2] := by
      decide
    rw [hRows (c, letter) hForm]
    exact .short hForm
  · have hNe
        (d letter : Char)
        (hForm : (d, letter) ∈ shortForms) :
        c ≠ d := by
      rintro rfl
      exact hShort ⟨letter, hForm⟩
    have hQuote := hNe '"' '"' (by decide)
    have hBackslash := hNe '\\' '\\' (by decide)
    unfold escape
    rw [if_neg (not_or.mpr ⟨hQuote, hBackslash⟩),
      if_neg (hNe '\n' 'n' (by decide)),
      if_neg (hNe '\r' 'r' (by decide)),
      if_neg (hNe '\t' 't' (by decide)),
      if_neg (hNe '\x08' 'b' (by decide)),
      if_neg (hNe '\x0c' 'f' (by decide))]
    split
    · rename_i hRange
      exact .itself hQuote hBackslash hRange.1
    · exact .code

theorem eq_of_mem_shortForms
    {c d letter : Char}
    (hC : (c, letter) ∈ shortForms)
    (hD : (d, letter) ∈ shortForms) :
    c = d := by
  have hRows :
      ∀ row ∈ shortForms, ∀ other ∈ shortForms,
        row.2 = other.2 → row.1 = other.1 := by
    decide
  exact hRows (c, letter) hC (d, letter) hD rfl

theorem letter_ne_of_mem_shortForms
    {c letter : Char}
    (hForm : (c, letter) ∈ shortForms) :
    letter ≠ 'u' := by
  have hRows : ∀ row ∈ shortForms, row.2 ≠ 'u' := by
    decide
  exact hRows (c, letter) hForm

theorem escapeCode_eq_cons
    (n : Nat) :
    ∃ digits, escapeCode n = '\\' :: 'u' :: digits := by
  unfold escapeCode escapeUnit
  split
  · exact ⟨_, rfl⟩
  · exact ⟨_, rfl⟩

/- What starts with another character is no code. -/
theorem escapeCode_append_ne
    {c : Char}
    (hBackslash : c ≠ '\\')
    (n : Nat)
    (text other : List Char) :
    escapeCode n ++ other ≠ c :: text := by
  rcases escapeCode_eq_cons n with ⟨digits, hCode⟩
  rw [hCode]
  intro h
  exact hBackslash (List.cons.inj h).1.symm

/- Nor is what starts with a short form. -/
theorem escapeCode_append_ne_short
    {c letter : Char}
    (hForm : (c, letter) ∈ shortForms)
    (n : Nat)
    (text other : List Char) :
    escapeCode n ++ other ≠ '\\' :: letter :: text := by
  rcases escapeCode_eq_cons n with ⟨digits, hCode⟩
  rw [hCode]
  intro h
  exact
    letter_ne_of_mem_shortForms hForm
      (List.cons.inj (List.cons.inj h).2).1.symm

/- A unit can be told from what follows it. -/
theorem escapeUnit_append_inj
    {a b : Nat}
    {text other : List Char}
    (hA : a < 0x10000)
    (hB : b < 0x10000)
    (h : escapeUnit a ++ text = escapeUnit b ++ other) :
    a = b ∧ text = other := by
  have hLength :
      (escapeUnit a).length = (escapeUnit b).length := by
    simp [escapeUnit, Text.length_hex]
  rcases List.append_inj h hLength with ⟨hUnit, hText⟩
  unfold escapeUnit at hUnit
  simp only [List.cons.injEq, true_and] at hUnit
  exact ⟨Text.hex_four_inj hA hB hUnit, hText⟩

/-
  So can a code. A code of two units starts with one that is
  a surrogate, and no character is a surrogate.
-/
theorem escapeCode_append_inj
    {c d : Char}
    {text other : List Char}
    (h :
      escapeCode c.toNat ++ text =
        escapeCode d.toNat ++ other) :
    c = d ∧ text = other := by
  have hC :
      c.toNat < 0xd800 ∨
        (0xdfff < c.toNat ∧ c.toNat < 0x110000) :=
    c.valid
  have hD :
      d.toNat < 0xd800 ∨
        (0xdfff < d.toNat ∧ d.toNat < 0x110000) :=
    d.valid
  have hSame (hEq : c.toNat = d.toNat) : c = d := by
    rw [← Char.ofNat_toNat c, hEq, Char.ofNat_toNat]
  unfold escapeCode at h
  split at h
  · split at h
    · rcases escapeUnit_append_inj ‹_› ‹_› h with
        ⟨hUnit, hText⟩
      exact ⟨hSame hUnit, hText⟩
    · rw [List.append_assoc] at h
      rcases escapeUnit_append_inj (by omega) (by omega) h
        with ⟨hUnit, -⟩
      omega
  · split at h
    · rw [List.append_assoc] at h
      rcases escapeUnit_append_inj (by omega) (by omega) h
        with ⟨hUnit, -⟩
      omega
    · rw [List.append_assoc, List.append_assoc] at h
      rcases escapeUnit_append_inj (by omega) (by omega) h
        with ⟨hHigh, hRest⟩
      rcases
        escapeUnit_append_inj (by omega) (by omega) hRest
        with ⟨hLow, hText⟩
      exact ⟨hSame (by omega), hText⟩

/-
  No escape begins another one. The cases are the ways in
  which the two characters are written.
-/
theorem EscapedAs.append_inj
    {c d : Char}
    {first second text other : List Char}
    (hFirst : EscapedAs c first)
    (hSecond : EscapedAs d second)
    (h : first ++ text = second ++ other) :
    c = d ∧ text = other := by
  cases hFirst with
  | @short letter hForm =>
      cases hSecond with
      | @short letter' hForm' =>
          simp only [List.cons_append, List.nil_append,
            List.cons.injEq, true_and] at h
          rcases h with ⟨rfl, hText⟩
          exact ⟨eq_of_mem_shortForms hForm hForm', hText⟩
      | itself hQuote hBackslash hLow =>
          exact (hBackslash (List.cons.inj h).1.symm).elim
      | code =>
          exact
            (escapeCode_append_ne_short hForm _ _ _
              h.symm).elim
  | itself hQuote hBackslash hLow =>
      cases hSecond with
      | short hForm =>
          exact (hBackslash (List.cons.inj h).1).elim
      | itself hQuote' hBackslash' hLow' =>
          exact List.cons.inj h
      | code =>
          exact
            (escapeCode_append_ne hBackslash _ _ _
              h.symm).elim
  | code =>
      cases hSecond with
      | short hForm =>
          exact
            (escapeCode_append_ne_short hForm _ _ _ h).elim
      | itself hQuote hBackslash hLow =>
          exact (escapeCode_append_ne hBackslash _ _ _ h).elim
      | code => exact escapeCode_append_inj h

/- No escape begins with a quotation mark. -/
theorem EscapedAs.head?_ne
    {c : Char}
    {written : List Char}
    (hWritten : EscapedAs c written)
    (text other : List Char) :
    written ++ text ≠ '"' :: other := by
  cases hWritten with
  | short hForm =>
      intro h
      cases h
  | itself hQuote hBackslash hLow =>
      intro h
      exact hQuote (List.cons.inj h).1
  | code => exact escapeCode_append_ne (by decide) _ _ _

/- An escape holds no line feed. -/
theorem EscapedAs.not_mem
    {c : Char}
    {written : List Char}
    (hWritten : EscapedAs c written) :
    '\n' ∉ written := by
  cases hWritten with
  | short hForm =>
      have hRows :
          ∀ row ∈ shortForms, '\n' ∉ ['\\', row.2] := by
        decide
      exact hRows (c, _) hForm
  | itself hQuote hBackslash hLow =>
      rw [List.mem_singleton]
      rintro rfl
      exact absurd hLow (by decide)
  | code =>
      unfold escapeCode escapeUnit
      have hHex := Text.lineFeed_not_mem_hex 4
      split
      · simp [hHex]
      · simp [hHex]

------------------------------------------------------------
-- Strings
------------------------------------------------------------

/- Escaped characters end where a quotation mark stands. -/
theorem flatMap_escape_inj
    {first second text other : List Char}
    (h :
      first.flatMap escape ++ '"' :: text =
        second.flatMap escape ++ '"' :: other) :
    first = second ∧ text = other := by
  induction first generalizing second with
  | nil =>
      cases second with
      | nil => exact ⟨rfl, (List.cons.inj h).2⟩
      | cons d second =>
          rw [List.flatMap_cons, List.append_assoc] at h
          exact
            ((escapedAs d).head?_ne _ _ h.symm).elim
  | cons c first ih =>
      cases second with
      | nil =>
          rw [List.flatMap_cons, List.append_assoc] at h
          exact ((escapedAs c).head?_ne _ _ h).elim
      | cons d second =>
          rw [List.flatMap_cons, List.flatMap_cons,
            List.append_assoc, List.append_assoc] at h
          rcases (escapedAs c).append_inj (escapedAs d) h
            with ⟨rfl, hRest⟩
          rcases ih hRest with ⟨rfl, hText⟩
          exact ⟨rfl, hText⟩

/- A string can be told from what follows it. -/
theorem string_append_inj
    {a b text other : String}
    (h : string a ++ text = string b ++ other) :
    a = b ∧ text = other := by
  rw [← String.toList_inj] at h
  unfold string at h
  simp only [String.toList_append, String.toList_ofList,
    List.cons_append, List.append_assoc, List.nil_append,
    List.cons.injEq, true_and] at h
  rcases flatMap_escape_inj h with ⟨hString, hText⟩
  exact ⟨String.toList_inj.mp hString, String.toList_inj.mp hText⟩

/- A string is written on one line. -/
theorem not_mem_string
    (text : String) :
    '\n' ∉ (string text).toList := by
  unfold string
  rw [String.toList_ofList]
  intro hMem
  simp only [List.cons_append, List.mem_cons,
    List.mem_append, List.mem_flatMap, List.not_mem_nil,
    or_false] at hMem
  rcases hMem with hMem | ⟨c, -, hMem⟩ | hMem
  · cases hMem
  · exact (escapedAs c).not_mem hMem
  · cases hMem

end Json

end LetLang

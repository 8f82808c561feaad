import LetLang.Proofs.Numeral
import LetLang.Tree.Node
import Mathlib.Data.List.Induction
import Mathlib.Data.Nat.Digits.Defs
import Mathlib.Tactic.IntervalCases

/-
  Decimal numerals: what an integer token denotes, and how
  it is written back.

  A text is refused by the first of three tests that it does
  not pass: it is a run of figures, it has at most 4300 of
  them, and the number that they denote in base ten is at
  most 2 ^ 63 - 1. All other texts are read as that number.

  The number is written with the figures of its text that
  are significant, which are those behind the leading zeros.
  Such a run is determined by its value: its last figure is
  the remainder by ten, and what stands before it is the run
  of the quotient. Hence what is written is read again as
  the same number.

  Key definitions include:
    * `Numeral.figures`
    * `Numeral.IsRun`
    * `Numeral.decimal`
    * `Numeral.significant`

  Main declarations:
    * `Numeral.value_eq_decimal`
    * `Numeral.toDigits_value`
    * `Numeral.toString_value`
    * `Token.integer_eq`
    * `Token.integer_denotes`
-/

namespace LetLang

namespace Numeral

------------------------------------------------------------
-- Figures
------------------------------------------------------------

/- The ten figures, each at the place of its value. -/
def figures : List Char :=
  ['0', '1', '2', '3', '4', '5', '6', '7', '8', '9']

theorem isDigit_iff_mem
    {c : Char} :
    Text.isDigit c = true ↔ c ∈ figures := by
  constructor
  · intro h
    have hBounds : 48 ≤ c.toNat ∧ c.toNat ≤ 57 := by
      unfold Text.isDigit Char.isDigit at h
      rw [Bool.and_eq_true, decide_eq_true_eq,
        decide_eq_true_eq] at h
      exact h
    have hMem :
        ∀ n, 48 ≤ n → n ≤ 57 → Char.ofNat n ∈ figures := by
      intro n hLeast hMost
      interval_cases n <;> decide
    rw [← Char.ofNat_toNat c]
    exact hMem c.toNat hBounds.1 hBounds.2
  · intro h
    have hAll : figures.all Text.isDigit = true := by decide
    exact List.all_eq_true.mp hAll c h

theorem digitValue_eq_idxOf
    {c : Char}
    (h : c ∈ figures) :
    digitValue c = figures.idxOf c := by
  have hAll :
      figures.all
        (fun d => digitValue d == figures.idxOf d) := by
    decide
  exact beq_iff_eq.mp (List.all_eq_true.mp hAll c h)

------------------------------------------------------------
-- Runs of Figures
------------------------------------------------------------

/- There is a figure, and there is nothing else. -/
structure IsRun
    (digits : List Char) : Prop where
  ne_nil : digits ≠ []
  mem_figures : ∀ c ∈ digits, c ∈ figures

instance
    (digits : List Char) :
    Decidable (IsRun digits) :=
  decidable_of_iff
    (digits.isEmpty = false ∧
      digits.all figures.contains = true)
    ⟨fun h => ⟨by simpa using h.1, by simpa using h.2⟩,
      fun h =>
        ⟨by simpa using h.ne_nil,
          by simpa using h.mem_figures⟩⟩

/- Runs of digits are runs of figures. -/
theorem isDigits_iff_isRun
    {text : String} :
    Text.isDigits text = true ↔ IsRun text.toList := by
  rw [Text.isDigits_iff]
  constructor
  · rintro ⟨hSome, hAll⟩
    exact
      ⟨hSome, fun c hMem =>
        isDigit_iff_mem.mp (hAll c hMem)⟩
  · rintro ⟨hSome, hAll⟩
    exact
      ⟨hSome, fun c hMem =>
        isDigit_iff_mem.mpr (hAll c hMem)⟩

/- What is no run is empty or has something else in it. -/
theorem not_isRun_iff
    {digits : List Char} :
    ¬ IsRun digits ↔
      digits = [] ∨ ∃ c ∈ digits, c ∉ figures := by
  constructor
  · intro hNot
    by_contra hOther
    rw [not_or, not_exists] at hOther
    apply hNot
    refine ⟨hOther.1, ?_⟩
    intro c hMem
    by_contra hFigure
    exact hOther.2 c ⟨hMem, hFigure⟩
  · rintro (hNil | ⟨c, hMem, hFigure⟩) hRun
    · exact hRun.ne_nil hNil
    · exact hFigure (hRun.mem_figures c hMem)

/-
  The number that a run of figures denotes in base ten: the
  figures count ones, tens, hundreds and so on from the last
  of them to the first.
-/
def decimal
    (digits : List Char) : Nat :=
  Nat.ofDigits 10
    (digits.reverse.map (fun c => figures.idxOf c))

/- A figure at the end shifts the others by one place. -/
theorem value_concat
    (digits : List Char)
    (c : Char) :
    value (digits ++ [c]) =
      10 * value digits + digitValue c := by
  unfold value
  rw [List.foldl_append]
  rfl

/- The value of a run is the number that it denotes. -/
theorem value_eq_decimal
    {digits : List Char}
    (h : ∀ c ∈ digits, c ∈ figures) :
    value digits = decimal digits := by
  induction digits using List.reverseRecOn with
  | nil => rfl
  | append_singleton digits c ih =>
      rcases List.forall_mem_append.mp h with
        ⟨hInit, hLast⟩
      have hFigure : c ∈ figures :=
        hLast c (List.mem_singleton.mpr rfl)
      rw [value_concat, ih hInit,
        digitValue_eq_idxOf hFigure]
      unfold decimal
      rw [List.reverse_append, List.reverse_singleton,
        List.singleton_append, List.map_cons,
        Nat.ofDigits_cons]
      exact Nat.add_comm _ _

------------------------------------------------------------
-- Significant Figures
------------------------------------------------------------

/- A run without the zeros that stand before a figure. -/
def significant : List Char → List Char
  | '0' :: c :: digits => significant (c :: digits)
  | digits => digits

/- The zeros that are left out count nothing. -/
theorem value_significant
    (digits : List Char) :
    value (significant digits) = value digits := by
  fun_induction significant digits with
  | case1 c digits ih => exact ih
  | case2 digits hNot => rfl

theorem significant_suffix
    (digits : List Char) :
    significant digits <:+ digits := by
  fun_induction significant digits with
  | case1 c digits ih =>
      exact ih.trans (List.suffix_cons '0' (c :: digits))
  | case2 digits hNot => exact List.suffix_rfl

/- A zero is significant only if it is alone. -/
theorem eq_zero_of_head?_significant
    {digits : List Char}
    (h : (significant digits).head? = some '0') :
    significant digits = ['0'] := by
  fun_induction significant digits with
  | case1 c digits ih => exact ih h
  | case2 digits hNot =>
      rcases List.head?_eq_some_iff.mp h with ⟨rest, rfl⟩
      cases rest with
      | nil => rfl
      | cons c rest => exact (hNot c rest rfl).elim

theorem significant_ne_nil
    {digits : List Char}
    (h : digits ≠ []) :
    significant digits ≠ [] := by
  fun_induction significant digits with
  | case1 c digits ih => exact ih (List.cons_ne_nil c digits)
  | case2 digits hNot => exact h

theorem IsRun.significant
    {digits : List Char}
    (h : IsRun digits) :
    IsRun (significant digits) := by
  constructor
  · exact significant_ne_nil h.ne_nil
  · intro c hMem
    exact
      h.mem_figures c ((significant_suffix digits).mem hMem)

------------------------------------------------------------
-- Writing Numbers
------------------------------------------------------------

theorem toDigits_digitValue
    {c : Char}
    (h : c ∈ figures) :
    digitValue c < 10 ∧
      Nat.toDigits 10 (digitValue c) = [c] := by
  have hAll :
      figures.all
        (fun d =>
          digitValue d < 10
            && Nat.toDigits 10 (digitValue d) == [d]) := by
    decide
  simpa using List.all_eq_true.mp hAll c h

/-
  Figures behind a number that is not zero continue it: each
  is the last figure of the number that it leads to.
-/
theorem toDigits_append
    {digits : List Char}
    (h : ∀ c ∈ digits, c ∈ figures)
    {n : Nat}
    (hPositive : 0 < n) :
    Nat.toDigits 10 n ++ digits =
      Nat.toDigits 10
        (digits.foldl
          (fun n c => 10 * n + digitValue c) n) := by
  induction digits generalizing n with
  | nil => exact List.append_nil _
  | cons c digits ih =>
      rcases List.forall_mem_cons.mp h with ⟨hFigure, hRest⟩
      rcases toDigits_digitValue hFigure with
        ⟨hBound, hWritten⟩
      have hLonger :
          Nat.toDigits 10 n ++ [c] =
            Nat.toDigits 10 (10 * n + digitValue c) := by
        rw [← hWritten]
        exact
          Nat.toDigits_append_toDigits (by decide) hPositive
            hBound
      rw [List.append_cons, hLonger]
      exact ih hRest (by omega)

/-
  A number is written with the figures of any run that
  denotes it and has no zero before another figure.
-/
theorem toDigits_value
    {digits : List Char}
    (hRun : IsRun digits)
    (hZero : digits.head? = some '0' → digits = ['0']) :
    Nat.toDigits 10 (value digits) = digits := by
  cases digits with
  | nil => exact absurd rfl hRun.ne_nil
  | cons c digits =>
      rcases List.forall_mem_cons.mp hRun.mem_figures with
        ⟨hFigure, hRest⟩
      rcases toDigits_digitValue hFigure with
        ⟨-, hWritten⟩
      have hValue :
          value (c :: digits) =
            digits.foldl
              (fun n d => 10 * n + digitValue d)
              (digitValue c) := by
        unfold value
        rw [List.foldl_cons, Nat.mul_zero, Nat.zero_add]
      by_cases hFirst : digitValue c = 0
      · -- A zero in front is the only figure.
        have hChar : c = '0' := by
          rw [hFirst] at hWritten
          exact (List.singleton_inj.mp hWritten).symm
        subst hChar
        rw [hZero rfl]
        rfl
      · rw [hValue,
          ← toDigits_append hRest
            (Nat.pos_of_ne_zero hFirst),
          hWritten]
        rfl

/- So it is written with the significant figures. -/
theorem toString_value
    {digits : List Char}
    (hRun : IsRun digits) :
    toString (value digits) =
      String.ofList (significant digits) := by
  have hWritten :
      Nat.toDigits 10 (value (significant digits)) =
        significant digits :=
    toDigits_value hRun.significant
      eq_zero_of_head?_significant
  rw [value_significant] at hWritten
  rw [Nat.toString_eq_repr, Nat.repr_eq_ofList_toDigits,
    hWritten]

------------------------------------------------------------
-- Bounds
------------------------------------------------------------

/- The largest numeral, for numbers that are not negative. -/
theorem le_largest_iff
    {n : Nat} :
    (n : Int) ≤ largest ↔ n ≤ 2 ^ 63 - 1 := by
  unfold largest
  omega

/- What is written for a text that fits, fits as well. -/
theorem Fits.toString_value
    {text : String}
    (h : Fits text) :
    Fits (toString (value text.toList)) ∧
      value (toString (value text.toList)).toList =
        value text.toList := by
  have hRun := isDigits_iff_isRun.mp h.isDigits
  rw [Numeral.toString_value hRun, String.toList_ofList,
    value_significant]
  refine ⟨⟨?_, ?_, ?_⟩, rfl⟩
  · rw [isDigits_iff_isRun, String.toList_ofList]
    exact hRun.significant
  · have hShorter :=
      (significant_suffix text.toList).length_le
    rw [String.length_toList] at hShorter
    rw [String.length_ofList]
    exact hShorter.trans h.length_le
  · rw [String.toList_ofList, value_significant]
    exact h.value_le

end Numeral

------------------------------------------------------------
-- Integer Tokens
------------------------------------------------------------

namespace Token

open Numeral

/- The three tests in their order, and the number at last. -/
theorem integer_eq
    (token : Token) :
    token.integer =
      if ¬ IsRun token.literal.toList then
        .error (.contradiction token "not a digit run")
      else if 4300 < token.literal.toList.length then
        .error (.digitLimit token.literal.toList.length)
      else if 2 ^ 63 - 1 < decimal token.literal.toList then
        .error (.contradiction token "out of 64-bit range")
      else
        .ok (decimal token.literal.toList) := by
  unfold integer Numeral.read
  rw [String.length_toList]
  by_cases hRun : IsRun token.literal.toList
  · rw [if_pos (isDigits_iff_isRun.mpr hRun),
      if_neg (not_not.mpr hRun),
      value_eq_decimal hRun.mem_figures]
    by_cases hLength : token.literal.length ≤ 4300
    · rw [if_pos (show _ ≤ maxDigits from hLength),
        if_neg (Nat.not_lt.mpr hLength)]
      by_cases hValue :
          decimal token.literal.toList ≤ 2 ^ 63 - 1
      · rw [if_pos (le_largest_iff.mpr hValue),
          if_neg (Nat.not_lt.mpr hValue)]
      · rw [if_neg (mt le_largest_iff.mp hValue),
          if_pos (Nat.not_le.mp hValue)]
        rfl
    · rw [if_neg (show ¬ _ ≤ maxDigits from hLength),
        if_pos (Nat.not_le.mp hLength)]
      rfl
  · rw [if_neg (mt isDigits_iff_isRun.mp hRun), if_pos hRun]
    rfl

/-
  An integer token of any kind has a fault or denotes a
  number, and which of them is known from its text: the
  reason is the first test that the text does not pass, and
  the number is the one that it denotes in base ten. It is
  written with the significant figures of the text, and a
  token of what is written denotes it as well.
-/
theorem integer_denotes
    (token : Token) :
    let digits := token.literal.toList
    (token.integer =
          .error (.contradiction token "not a digit run") ↔
        digits = [] ∨ ∃ c ∈ digits, c ∉ figures) ∧
      (∀ count,
        token.integer = .error (.digitLimit count) ↔
          IsRun digits ∧ 4300 < digits.length ∧
            count = digits.length) ∧
      (token.integer =
          .error (.contradiction token "out of 64-bit range") ↔
        IsRun digits ∧ digits.length ≤ 4300 ∧
          2 ^ 63 - 1 < decimal digits) ∧
      (∀ n,
        token.integer = .ok n ↔
          IsRun digits ∧ digits.length ≤ 4300 ∧
            decimal digits ≤ 2 ^ 63 - 1 ∧
            n = decimal digits) ∧
      ∀ n,
        token.integer = .ok n →
          let rendered := (Node.int token n).render
          rendered = String.ofList (significant digits) ∧
            ∀ kind,
              let again : Token := ⟨kind, rendered⟩
              again.integer = .ok n ∧
                (Node.int again n).render = rendered := by
  intro digits
  refine ⟨?_, ?_, ?_, ?_, ?_⟩
  · rw [integer_eq, ← not_isRun_iff]
    grind
  · intro count
    rw [integer_eq]
    grind
  · rw [integer_eq]
    grind
  · intro n
    rw [integer_eq]
    grind
  · intro n hInteger rendered
    rcases integer_eq_ok_iff.mp hInteger with ⟨hFits, rfl⟩
    have hRun : IsRun digits :=
      isDigits_iff_isRun.mp hFits.isDigits
    rcases hFits.toString_value with ⟨hAgain, hValue⟩
    refine ⟨Numeral.toString_value hRun, ?_⟩
    intro kind again
    exact
      ⟨integer_eq_ok_iff.mpr ⟨hAgain, hValue.symm⟩, rfl⟩

/-
  The largest number behind leading zeros, in a token that
  is no number by its kind.
-/
theorem integer_denotes_largest :
    let token : Token := ⟨.plus, "0009223372036854775807"⟩
    let n := 9223372036854775807
    token.integer = .ok n ∧
      (Node.int token n).render = "9223372036854775807" ∧
      (⟨.int, "9223372036854775807"⟩ : Token).integer =
        .ok n := by
  intro token n
  have hInteger : token.integer = .ok n := by
    decide +kernel
  rcases token.integer_denotes with ⟨-, -, -, -, hWritten⟩
  rcases hWritten n hInteger with ⟨hRender, hAgain⟩
  have hText :
      String.ofList (significant token.literal.toList) =
        "9223372036854775807" := by
    decide +kernel
  rw [hText] at hRender
  have hInt := (hAgain .int).1
  rw [hRender] at hInt
  exact ⟨hInteger, hRender, hInt⟩

end Token

end LetLang

import LetLang.Proofs.Scan.Concatenation

/-
  Delimiters: characters at which every text splits.

  A character that is part of no run, and is not one of the
  two signs either, ends the token before it, whatever that
  is, and starts no longer token. So a text has the tokens
  of what is before such a character, of the character, and
  of what is behind it. Blanks are such characters and have
  no tokens, so it does not matter which blanks stand in a
  gap, as long as there is one.

  Key definitions include:
    * `Scan.Delimits`

  Main declarations:
    * `Scan.tokens_append_of_delimits`
    * `Scan.tokens_cons`
    * `Scan.tokenize_delimiter`
-/

namespace LetLang

namespace Scan

open Text

------------------------------------------------------------
-- In Front of a Delimiter
------------------------------------------------------------

/-
  The text goes on with no token that is before it: its
  first character is of no run and no equals sign.
-/
def Delimits
    (text : List Char) : Prop :=
  ∀ c ∈ text.head?,
    isDigit c = false ∧ isLetter c = false ∧ c ≠ '='

theorem delimits_nil :
    Delimits [] := by
  rintro c ⟨⟩

theorem delimits_cons
    {c : Char}
    (h : isDigit c = false ∧ isLetter c = false ∧ c ≠ '=')
    (text : List Char) :
    Delimits (c :: text) := by
  rintro d ⟨⟩
  exact h

/-
  The tokens of a concatenation are those of its parts, if
  the second part goes on with no token of the first.
-/
theorem tokens_append_of_delimits
    {rest : List Char}
    (hRest : Delimits rest)
    (text : List Char) :
    tokens (text ++ rest) = tokens text ++ tokens rest := by
  apply tokens_of_spelling
  refine
    (spelling_tokens text).append ?_ (spelling_tokens rest)
  intro token hMem
  exact Token.endsBefore_of_classes hRest token

theorem tokens_append_of_isSpace
    {blanks : List Char}
    (hBlanks : ∀ c ∈ blanks, isSpace c = true)
    (text : List Char) :
    tokens (blanks ++ text) = tokens text :=
  tokens_of_spelling
    ((spelling_tokens text).of_blanks hBlanks)

theorem tokens_nil :
    tokens [] = [] :=
  tokens_of_none rfl

------------------------------------------------------------
-- At a Delimiter
------------------------------------------------------------

/- A character that stands alone is a token of its own. -/
theorem tokens_cons_of_standsAlone
    {c : Char}
    (hAlone : standsAlone c = true)
    (text : List Char) :
    tokens (c :: text) = single c :: tokens text := by
  have hSpace : isSpace c = false :=
    (standsAlone_iff.mp hAlone).2.2.1
  apply tokens_of_some
  rw [first?_cons hSpace, lexeme_of_standsAlone hAlone]

/-
  The tokens of a text that starts with a delimiter: a blank
  has none, and any other one has one.
-/
theorem tokens_cons
    {c : Char}
    (hDigit : isDigit c = false)
    (hLetter : isLetter c = false)
    (hEqual : c ≠ '=')
    (hBang : c ≠ '!')
    (text : List Char) :
    tokens (c :: text) =
      (if isSpace c then [] else [single c])
        ++ tokens text := by
  cases hSpace : isSpace c with
  | true =>
      have hBlank : ∀ d ∈ [c], isSpace d = true := by
        intro d hMem
        rw [List.mem_singleton.mp hMem]
        exact hSpace
      exact tokens_append_of_isSpace hBlank text
  | false =>
      have hAlone : standsAlone c = true :=
        standsAlone_iff.mpr
          ⟨hDigit, hLetter, hSpace, hEqual, hBang⟩
      exact tokens_cons_of_standsAlone hAlone text

/- What stands around a gap has its tokens by itself. -/
theorem tokens_gap
    {gap : List Char}
    (hGap : gap ≠ [])
    (hBlanks : ∀ c ∈ gap, isSpace c = true)
    (text rest : List Char) :
    tokens (text ++ (gap ++ rest)) =
      tokens text ++ tokens rest := by
  rcases List.exists_cons_of_ne_nil hGap with
    ⟨blank, blanks, rfl⟩
  have hSpace : isSpace blank = true :=
    hBlanks blank (List.mem_cons_self ..)
  have hRest : Delimits (blank :: blanks ++ rest) :=
    delimits_cons (classes_of_isSpace hSpace) _
  rw [tokens_append_of_delimits hRest,
    tokens_append_of_isSpace hBlanks]

------------------------------------------------------------
-- Sources
------------------------------------------------------------

theorem dropLast_tokenize
    (source : String) :
    (tokenize source).dropLast = tokens source.toList :=
  List.dropLast_concat

/-
  Scanning splits at every delimiter. The tokens of a source
  are those of what is before it, none for a blank or one
  for any other delimiter, and those of what is behind it,
  with the end token. So a gap may be replaced by another
  one, if neither is empty.
-/
theorem tokenize_delimiter :
    (∀ (before behind : String) (c : Char),
      isDigit c = false →
        isLetter c = false →
          c ≠ '=' →
            c ≠ '!' →
              tokenize
                    (before ++ String.singleton c
                      ++ behind) =
                  (tokenize before).dropLast
                    ++ (tokenize
                      (String.singleton c)).dropLast
                    ++ tokenize behind ∧
                (tokenize (String.singleton c)).dropLast =
                  if isSpace c then [] else [single c]) ∧
      ∀ before gap other behind : String,
        gap ≠ "" →
          other ≠ "" →
            (∀ c ∈ gap.toList, isSpace c = true) →
              (∀ c ∈ other.toList, isSpace c = true) →
                tokenize (before ++ gap ++ behind) =
                  tokenize (before ++ other ++ behind) := by
  constructor
  · intro before behind c hDigit hLetter hEqual hBang
    have hCons :=
      tokens_cons hDigit hLetter hEqual hBang
    have hAlone :
        (tokenize (String.singleton c)).dropLast =
          if isSpace c then [] else [single c] := by
      rw [dropLast_tokenize, String.toList_singleton, hCons,
        tokens_nil, List.append_nil]
    have hRest : Delimits (c :: behind.toList) :=
      delimits_cons ⟨hDigit, hLetter, hEqual⟩ _
    have hText :
        (before ++ String.singleton c ++ behind).toList =
          before.toList ++ (c :: behind.toList) := by
      simp
    refine ⟨?_, hAlone⟩
    rw [hAlone, dropLast_tokenize]
    unfold tokenize
    rw [hText, tokens_append_of_delimits hRest, hCons]
    simp only [List.append_assoc]
  · intro before gap other behind hGap hOther hBlanks
      hOthers
    have hSplit
        {blanks : String}
        (hSome : blanks ≠ "")
        (hAll : ∀ c ∈ blanks.toList, isSpace c = true) :
        tokens (before ++ blanks ++ behind).toList =
          tokens before.toList ++ tokens behind.toList := by
      have hNil : blanks.toList ≠ [] := by
        intro hNil
        exact hSome (String.toList_inj.mp hNil)
      rw [String.toList_append, String.toList_append,
        List.append_assoc]
      exact tokens_gap hNil hAll _ _
    unfold tokenize
    rw [hSplit hGap hBlanks, hSplit hOther hOthers]

/-
  A delimiter between two signs that it keeps apart, and
  blanks of two kinds between two words.
-/
theorem tokenize_delimiter_signs :
    tokenize ("a=" ++ String.singleton '<' ++ "=1") =
        (tokenize "a=").dropLast ++ [⟨.lessThan, "<"⟩]
          ++ tokenize "=1" ∧
      tokenize ("a" ++ "\t\n" ++ "b") =
        tokenize ("a" ++ " " ++ "b") := by
  constructor
  · rcases
      tokenize_delimiter.1 "a=" "=1" '<' (by decide)
        (by decide) (by decide) (by decide) with
      ⟨hSplit, hAlone⟩
    rw [hSplit, hAlone]
    rfl
  · exact
      tokenize_delimiter.2 "a" "\t\n" " " "b" (by decide)
        (by decide) (List.all_eq_true.mp rfl)
        (List.all_eq_true.mp rfl)

end Scan

end LetLang

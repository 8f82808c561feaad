import LetLang.Proofs.Scan.Spelling

/-
  Concatenations of texts: when the tokens of the whole are
  those of its parts.

  Where two texts meet, the last token of the first one must
  not run on into the second. A semicolon never does, and no
  token runs on into a blank.

  Main declarations:
    * `Scan.Spelling.append`
    * `Scan.tokens_append`
-/

namespace LetLang

namespace Scan

/- More blanks before a spelling leave one. -/
theorem Spelling.of_blanks
    {tokens : List Token}
    {blanks text : List Char}
    (hText : Spelling tokens text)
    (hBlanks : ∀ c ∈ blanks, Text.isSpace c = true) :
    Spelling tokens (blanks ++ text) := by
  have hBoth
      {own : List Char}
      (hOwn : ∀ c ∈ own, Text.isSpace c = true) :
      ∀ c ∈ blanks ++ own, Text.isSpace c = true := by
    intro c hMem
    rcases List.mem_append.mp hMem with hMem | hMem
    · exact hBlanks c hMem
    · exact hOwn c hMem
  cases hText with
  | nil hOwn => exact .nil (hBoth hOwn)
  | cons hOwn hLexical hEnds hLater =>
      rw [← List.append_assoc]
      exact .cons (hBoth hOwn) hLexical hEnds hLater

theorem Spelling.eq_nil
    {tokens : List Token}
    (hText : Spelling tokens []) :
    tokens = [] := by
  rw [← tokens_of_spelling hText]
  exact tokens_of_none rfl

/-
  Two spellings make one, if the last token of the first one
  ends before the second text.
-/
theorem Spelling.append
    {tokens later : List Token}
    {text rest : List Char}
    (hText : Spelling tokens text)
    (hLast :
      ∀ token ∈ tokens.getLast?, token.EndsBefore rest)
    (hRest : Spelling later rest) :
    Spelling (tokens ++ later) (text ++ rest) := by
  induction hText with
  | nil hBlanks => exact hRest.of_blanks hBlanks
  | @cons token tokens blanks text hBlanks hLexical hEnds
      hText ih =>
      have hEndsRest : token.EndsBefore (text ++ rest) := by
        cases text with
        | nil =>
            -- The token is the last one.
            rw [hText.eq_nil] at hLast
            exact hLast token rfl
        | cons c text => exact hEnds
      have hLater := ih (by
        intro last hMem
        apply hLast last
        cases tokens with
        | nil => cases hMem
        | cons next tokens => exact hMem)
      rw [List.cons_append, List.append_assoc,
        List.append_assoc]
      exact .cons hBlanks hLexical hEndsRest hLater

/-
  The tokens of a concatenation are those of its parts, if
  the first part ends with a semicolon.
-/
theorem tokens_append
    {text : List Char}
    (hLast :
      ∀ token ∈ (tokens text).getLast?,
        token.kind = .semicolon)
    (rest : List Char) :
    tokens (text ++ rest) = tokens text ++ tokens rest := by
  apply tokens_of_spelling
  refine
    (spelling_tokens text).append ?_ (spelling_tokens rest)
  intro token hMem
  exact
    Token.endsBefore_of_semicolon (hLast token hMem) rest

end Scan

end LetLang

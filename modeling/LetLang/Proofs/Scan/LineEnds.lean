import LetLang.Proofs.Scan.Decomposition
import LetLang.Text.Newline

/-
  Line ends do not matter to scanning.

  A carriage return and a line feed are both blank, so a
  text whose line ends are folded has the same tokens: its
  gaps are other ones and may be shorter, but the texts of
  its tokens are left alone, and a token ends before the one
  character as it ends before the other.

  Main declarations:
    * `Text.foldNewlines_append`
    * `Scan.Spelling.foldNewlines`
    * `Scan.tokens_foldNewlines`
-/

namespace LetLang

------------------------------------------------------------
-- Folding Parts of a Text
------------------------------------------------------------

namespace Text

theorem foldNewlines_cons
    {c : Char}
    {text : List Char}
    (hHead : c = '\r' → text.head? ≠ some '\n') :
    foldNewlines (c :: text) =
      (if c = '\r' then '\n' else c)
        :: foldNewlines text := by
  rw [foldNewlines]
  rintro rest rfl rfl
  exact hHead rfl rfl

/- Parts are folded one by one, if no line end spans both. -/
theorem foldNewlines_append
    {text : List Char}
    (run : List Char)
    (hHead : text.head? ≠ some '\n') :
    foldNewlines (run ++ text) =
      foldNewlines run ++ foldNewlines text := by
  fun_induction foldNewlines run with
  | case1 => rfl
  | case2 run ih =>
      rw [List.cons_append, List.cons_append, foldNewlines, ih]
      rfl
  | case3 c run hNot ih =>
      rw [List.cons_append, foldNewlines_cons, ih,
        List.cons_append]
      rintro rfl
      cases run with
      | nil => exact hHead
      | cons d run =>
          intro hFeed
          cases hFeed
          exact hNot run rfl rfl

/- A part without carriage returns is left alone. -/
theorem foldNewlines_append_of_not_mem
    {run : List Char}
    (hRun : '\r' ∉ run)
    (text : List Char) :
    foldNewlines (run ++ text) = run ++ foldNewlines text := by
  induction run with
  | nil => rfl
  | cons c run ih =>
      rw [List.mem_cons, not_or] at hRun
      rcases hRun with ⟨hFirst, hLater⟩
      have hNot : c ≠ '\r' := Ne.symm hFirst
      rw [List.cons_append, foldNewlines_cons, if_neg hNot,
        ih hLater, List.cons_append]
      intro hReturn
      exact absurd hReturn hNot

/- The first character stays, unless it ends a line. -/
theorem head?_foldNewlines
    (text : List Char) :
    (foldNewlines text).head? =
      text.head?.map
        (fun c => if c = '\r' then '\n' else c) := by
  fun_induction foldNewlines text with
  | case1 => rfl
  | case2 text ih => rfl
  | case3 c text hNot ih => rfl

/- Folding blanks leaves blanks. -/
theorem isSpace_of_mem_foldNewlines
    {blanks : List Char}
    (hBlanks : ∀ c ∈ blanks, isSpace c = true) :
    ∀ c ∈ foldNewlines blanks, isSpace c = true := by
  fun_induction foldNewlines blanks with
  | case1 => exact hBlanks
  | case2 text ih =>
      rw [List.forall_mem_cons, List.forall_mem_cons]
        at hBlanks
      exact List.forall_mem_cons.mpr ⟨rfl, ih hBlanks.2.2⟩
  | case3 c text hNot ih =>
      rw [List.forall_mem_cons] at hBlanks
      refine List.forall_mem_cons.mpr ⟨?_, ih hBlanks.2⟩
      split
      · rfl
      · exact hBlanks.1

end Text

------------------------------------------------------------
-- Tokens
------------------------------------------------------------

namespace Token

/- A token ends before either line end alike. -/
theorem EndsBefore.foldNewlines
    {token : Token}
    {text : List Char}
    (hEnds : token.EndsBefore text) :
    token.EndsBefore (Text.foldNewlines text) := by
  intro c hMem
  rw [Text.head?_foldNewlines] at hMem
  rcases Option.map_eq_some_iff.mp hMem with
    ⟨d, hHead, rfl⟩
  split
  · have hFeed :
        ∀ c ∈ ['\n'].head?, Text.isSpace c = true := by
      intro c hMem
      cases hMem
      rfl
    exact endsBefore_of_isSpace hFeed token '\n' rfl
  · exact hEnds d hHead

/- The text of a token ends no line and starts none. -/
theorem IsLexical.foldNewlines_append
    {token : Token}
    (hLexical : token.IsLexical)
    (text : List Char) :
    Text.foldNewlines (token.literal.toList ++ text) =
        token.literal.toList ++ Text.foldNewlines text ∧
      (token.literal.toList ++ text).head? ≠ some '\n' := by
  constructor
  · apply Text.foldNewlines_append_of_not_mem
    intro hMem
    have hSpace := hLexical.isSpace_eq_false hMem
    cases hSpace
  · rcases hLexical.exists_head with
      ⟨c, rest, hLiteral, hSpace, -⟩
    rw [hLiteral]
    rintro hHead
    cases hHead
    cases hSpace

end Token

namespace Scan

/- A spelling with folded line ends spells the same. -/
theorem Spelling.foldNewlines
    {tokens : List Token}
    {text : List Char}
    (hText : Spelling tokens text) :
    Spelling tokens (Text.foldNewlines text) := by
  induction hText with
  | nil hBlanks =>
      exact .nil (Text.isSpace_of_mem_foldNewlines hBlanks)
  | @cons token tokens blanks text hBlanks hLexical hEnds
      hText ih =>
      rcases hLexical.foldNewlines_append text with
        ⟨hFold, hHead⟩
      rw [Text.foldNewlines_append blanks hHead, hFold]
      exact
        .cons (Text.isSpace_of_mem_foldNewlines hBlanks)
          hLexical hEnds.foldNewlines ih

/- So the tokens of a text are those of its folded form. -/
theorem tokens_foldNewlines
    (text : List Char) :
    tokens (Text.foldNewlines text) = tokens text :=
  tokens_of_spelling (spelling_tokens text).foldNewlines

end Scan

end LetLang

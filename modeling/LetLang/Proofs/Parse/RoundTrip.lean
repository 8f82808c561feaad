import LetLang.Proofs.Parse.Reading

/-
  The round trip: a program that is written down is parsed
  to itself.

  A program is written by listing the tokens of its
  statements with semicolons between them, and by laying the
  tokens out as a text. Blanks stand between the tokens in
  any number; next to a semicolon there need not be any. The
  scanner gives back the tokens of the layout, and the
  parser reads the program from its listing.

  Key definitions include:
    * `Program.Listing`
    * `Scan.Layout`

  Main declarations:
    * `Program.Listing.reading`
    * `Scan.Layout.spelling`
    * `Parse.source_of_layout`
-/

------------------------------------------------------------
-- Listing a Program
------------------------------------------------------------

namespace LetLang

/-
  The tokens of a program: those of its statements with a
  semicolon behind each, which the last one may lack.
-/
inductive Program.Listing :
    Program → List Token → Prop where
  | nil : Listing [] []
  | last
      (stmt : Stmt) :
      Listing [stmt] stmt.yield
  | cons
      (stmt : Stmt)
      {program : Program}
      {tokens : List Token}
      (hLater : Listing program tokens) :
      Listing (stmt :: program)
        (stmt.yield ++ Token.semicolon :: tokens)

namespace Program

/- A listing is read as the program that it lists. -/
theorem Listing.reading
    {program : Program}
    {tokens : List Token}
    (hListing : Listing program tokens)
    (hCanonical : ∀ stmt ∈ program, stmt.IsCanonical) :
    ∃ passed, Parse.Reading tokens program passed := by
  induction hListing with
  | nil => exact ⟨[], .nil⟩
  | last stmt =>
      have hStmt := hCanonical stmt (List.mem_cons_self ..)
      exact ⟨[[]], .last hStmt rfl⟩
  | cons stmt hLater ih =>
      have hStmt := hCanonical stmt (List.mem_cons_self ..)
      rcases ih (fun other hMem =>
          hCanonical other (List.mem_cons_of_mem _ hMem))
        with ⟨passed, hReading⟩
      exact ⟨_, hReading.cons_semicolon hStmt rfl rfl⟩

/- A listed token is a semicolon or part of a statement. -/
theorem Listing.eq_or_mem
    {program : Program}
    {tokens : List Token}
    (hListing : Listing program tokens)
    {token : Token}
    (hMem : token ∈ tokens) :
    token = Token.semicolon ∨
      ∃ stmt ∈ program, token ∈ stmt.yield := by
  induction hListing with
  | nil => cases hMem
  | last stmt =>
      exact Or.inr ⟨stmt, List.mem_cons_self .., hMem⟩
  | @cons stmt program tokens hLater ih =>
      rcases List.mem_append.mp hMem with hMem | hMem
      · exact Or.inr ⟨stmt, List.mem_cons_self .., hMem⟩
      rcases List.mem_cons.mp hMem with hMem | hMem
      · exact Or.inl hMem
      rcases ih hMem with hMem | ⟨other, hOther, hMem⟩
      · exact Or.inl hMem
      · exact
          Or.inr
            ⟨other, List.mem_cons_of_mem _ hOther, hMem⟩

end Program

------------------------------------------------------------
-- Laying Out Tokens
------------------------------------------------------------

namespace Scan

open Text

/-
  A text with the texts of the tokens in order and blanks
  around them. Between two tokens there is at least one
  blank, unless one of the two is a semicolon.
-/
inductive Layout :
    List Token → List Char → Prop where
  | nil
      {blanks : List Char}
      (hBlanks : blanks.all isSpace = true) :
      Layout [] blanks
  | cons
      {token : Token}
      {tokens : List Token}
      {blanks text : List Char}
      (hBlanks : blanks.all isSpace = true)
      (hGap :
        text.head?.all isSpace = true ∨
          token = Token.semicolon ∨
          tokens.head? = some Token.semicolon)
      (hText : Layout tokens text) :
      Layout (token :: tokens)
        (blanks ++ (token.literal.toList ++ text))

/- No token runs on into a semicolon. -/
theorem Layout.endsBefore
    {tokens : List Token}
    {text : List Char}
    (hLayout : Layout tokens text)
    (hHead : tokens.head? = some Token.semicolon)
    (token : Token) :
    token.EndsBefore text := by
  apply Token.endsBefore_of_classes
  intro c hMem
  cases hLayout with
  | nil hBlanks => cases hHead
  | @cons first tokens blanks text hBlanks hGap hText =>
      cases hHead
      cases blanks with
      | nil =>
          cases hMem
          decide
      | cons blank blanks =>
          cases hMem
          exact classes_of_isSpace
            (List.all_eq_true.mp hBlanks c
              (List.mem_cons_self ..))

/- A layout of tokens with their own texts spells them. -/
theorem Layout.spelling
    {tokens : List Token}
    {text : List Char}
    (hLayout : Layout tokens text)
    (hLexical : ∀ token ∈ tokens, token.IsLexical) :
    Spelling tokens text := by
  induction hLayout with
  | nil hBlanks =>
      exact .nil (List.all_eq_true.mp hBlanks)
  | @cons token tokens blanks text hBlanks hGap hText ih =>
      have hEnds : token.EndsBefore text := by
        rcases hGap with hSpace | hToken | hHead
        · exact Token.endsBefore_of_isSpace
            ((Option.all_eq_true _ _).mp hSpace) token
        · rw [hToken]
          exact Token.endsBefore_of_semicolon rfl text
        · exact hText.endsBefore hHead token
      have hLater :=
        ih (fun other hMem =>
          hLexical other (List.mem_cons_of_mem _ hMem))
      exact
        .cons (List.all_eq_true.mp hBlanks)
          (hLexical token (List.mem_cons_self ..)) hEnds
          hLater

end Scan

------------------------------------------------------------
-- The Round Trip
------------------------------------------------------------

namespace Parse

/-
  A canonical program whose tokens have their own texts is
  parsed from every layout of its listing, and no error is
  recorded.
-/
theorem source_of_layout
    (program : Program)
    (tokens : List Token)
    (text : String)
    (hCanonical : ∀ stmt ∈ program, stmt.IsCanonical)
    (hLexical :
      ∀ stmt ∈ program, ∀ token ∈ stmt.yield,
        token.IsLexical)
    (hListing : program.Listing tokens)
    (hLayout : Scan.Layout tokens text.toList) :
    (source text).program = .ok program ∧
      (source text).final.log = #[] := by
  have hOwn : ∀ token ∈ tokens, token.IsLexical := by
    intro token hMem
    rcases hListing.eq_or_mem hMem with
      rfl | ⟨stmt, hStmt, hMem⟩
    · exact .single (c := ';') (by decide)
    · exact hLexical stmt hStmt token hMem
  have hTokens : Scan.tokens text.toList = tokens :=
    Scan.tokens_of_spelling (hLayout.spelling hOwn)
  apply source_clean_iff.mpr
  rw [hTokens]
  exact hListing.reading hCanonical

/- A binding and a bare expression, on two lines. -/
theorem source_of_layout_binding :
    (source "let x = 5;\n- x").program =
        .ok
          [.letStmt ⟨.letWord, "let"⟩ ⟨.ident, "x"⟩
              (.int ⟨.int, "5"⟩ 5),
            .exprStmt ⟨.minus, "-"⟩
              (.prefixOp ⟨.minus, "-"⟩
                (.ident ⟨.ident, "x"⟩))] ∧
      (source "let x = 5;\n- x").final.log = #[] := by
  refine
    source_of_layout _
      [⟨.letWord, "let"⟩, ⟨.ident, "x"⟩, ⟨.assign, "="⟩,
        ⟨.int, "5"⟩, Token.semicolon, ⟨.minus, "-"⟩,
        ⟨.ident, "x"⟩] _ ?_ ?_ ?_ ?_
  · decide +kernel
  · decide +kernel
  · exact .cons _ (.last _)
  · refine @Scan.Layout.cons _ _ [] " x = 5;\n- x".toList
      (by decide) (by decide) ?_
    refine @Scan.Layout.cons _ _ [' '] " = 5;\n- x".toList
      (by decide) (by decide) ?_
    refine @Scan.Layout.cons _ _ [' '] " 5;\n- x".toList
      (by decide) (by decide) ?_
    refine @Scan.Layout.cons _ _ [' '] ";\n- x".toList
      (by decide) (by decide) ?_
    refine @Scan.Layout.cons _ _ [] "\n- x".toList
      (by decide) (by decide) ?_
    refine @Scan.Layout.cons _ _ ['\n'] " x".toList
      (by decide) (by decide) ?_
    refine @Scan.Layout.cons _ _ [' '] []
      (by decide) (by decide) ?_
    exact .nil (by decide)

end Parse

end LetLang

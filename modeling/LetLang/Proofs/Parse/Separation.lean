import LetLang.Proofs.Parse.Consumption
import LetLang.Proofs.Parse.Reading

/-
  Separation: what stands between the statements of a source
  that is parsed without an error.

  Statements are separated if nothing but a semicolon, or
  nothing at all, stands behind each of them. The parser
  passes one or two tokens behind a statement and does not
  look at all of them, so a clean parse need not come from
  separated statements. It does exactly if all that is
  passed behind a statement is a semicolon or nothing.

  Key definitions include:
    * `Parse.IsSeparator`
    * `Parse.Separated`

  Main declarations:
    * `Parse.Reading.separated`
    * `Parse.Reading.isSeparator_of_separated`
    * `Parse.clean_separated_iff`
-/

------------------------------------------------------------
-- Counting Tokens
------------------------------------------------------------

namespace LetLang

namespace Parse

/- The statements of a reading have no more tokens than it. -/
theorem Reading.size_le
    {tokens : List Token}
    {program : Program}
    {passed : List (List Token)}
    (hReading : Reading tokens program passed) :
    Program.size program ≤
      TokenStream.weight (tokens.map some) := by
  let state := State.ofStream (TokenStream.ofTokens tokens)
  have hRest :
      state.stream.rest = tokens.map some ++ [] :=
    (List.append_nil _).symm
  rcases hReading.course .nil hRest with
    ⟨final, hCourse, -⟩
  exact hCourse.size_le rfl

------------------------------------------------------------
-- Separated Statements
------------------------------------------------------------

/- Nothing, or a semicolon. -/
def IsSeparator
    (mark : List Token) : Prop :=
  mark = [] ∨ ∃ token, token.kind = .semicolon ∧ mark = [token]

/-
  Tokens are those of the statements of a program, in order
  and each followed by a separator.
-/
inductive Separated :
    Program → List Token → Prop where
  | nil : Separated [] []
  | cons
      {stmt : Stmt}
      {sign : Token}
      {mark rest : List Token}
      {program : Program}
      (hSign : sign.kind = .assign)
      (hMark : IsSeparator mark)
      (hRest : Separated program rest) :
      Separated (stmt :: program)
        (stmt.yieldWith sign ++ (mark ++ rest))

theorem IsSeparator.weight_eq
    {mark : List Token}
    (h : IsSeparator mark) :
    TokenStream.weight (mark.map some) = 0 := by
  rcases h with rfl | ⟨token, hKind, rfl⟩
  · rfl
  · simp [TokenStream.weight, Token.Kind.isMark, hKind]

/- Separated statements weigh what they have in tokens. -/
theorem Separated.weight_eq
    {program : Program}
    {tokens : List Token}
    (hSeparated : Separated program tokens)
    (hCanonical : ∀ stmt ∈ program, stmt.IsCanonical) :
    TokenStream.weight (tokens.map some) =
      Program.size program := by
  induction hSeparated with
  | nil => rfl
  | @cons stmt sign mark rest program hSign hMark hRest
      ih =>
      have hStmt := hCanonical stmt (List.mem_cons_self ..)
      have hLater :=
        ih (fun other hMem =>
          hCanonical other (List.mem_cons_of_mem _ hMem))
      rw [List.map_append, List.map_append,
        TokenStream.weight_append,
        TokenStream.weight_append,
        hStmt.weight_yieldWith hSign, hMark.weight_eq,
        hLater, Program.size_cons, Nat.zero_add]

/- Separated statements start with no mark. -/
theorem Separated.isMark_head?
    {program : Program}
    {tokens : List Token}
    (hSeparated : Separated program tokens)
    (hCanonical : ∀ stmt ∈ program, stmt.IsCanonical) :
    ∀ token ∈ tokens.head?, token.kind.isMark = false := by
  cases hSeparated with
  | nil =>
      intro token hHead
      cases hHead
  | cons hSign hMark hRest =>
      intro token hHead
      exact (hCanonical _ (List.mem_cons_self ..)).isMark_head?
        hSign hHead

/-
  A reading that passes only separators reads separated
  statements.
-/
theorem Reading.separated
    {tokens : List Token}
    {program : Program}
    {passed : List (List Token)}
    (hReading : Reading tokens program passed)
    (hPassed : ∀ mark ∈ passed, IsSeparator mark) :
    Separated program tokens := by
  induction hReading with
  | nil => exact .nil
  | @cons stmt sign rest program passed hCanonical hSign
      hStop hRest ih =>
      have hLater :=
        ih (fun mark hMem =>
          hPassed mark (List.mem_cons_of_mem _ hMem))
      have hMark := hPassed _ (List.mem_cons_self ..)
      have hRestEq :
          rest.take (stmt.skips rest)
              ++ rest.drop (stmt.skips rest) = rest :=
        List.take_append_drop _ _
      rw [← hRestEq]
      exact .cons hSign hMark hLater

/-
  A statement that is not the last and has no separator
  behind it loses the one after it: too few tokens are left
  for the other statements.
-/
theorem Reading.eq_nil_of_separated
    {stmt : Stmt}
    {rest : List Token}
    {program : Program}
    {passed : List (List Token)}
    (hReading :
      Reading (rest.drop (stmt.skips rest)) program passed)
    (hSeparated : Separated program rest) :
    rest = [] := by
  cases hRest : rest with
  | nil => rfl
  | cons token later =>
      have hFirst : token.kind.isMark = false := by
        apply hSeparated.isMark_head? hReading.isCanonical
        rw [hRest]
        rfl
      have hDrop :
          rest.drop (stmt.skips rest) <:+ later := by
        rcases Nat.exists_eq_add_one_of_ne_zero
            (Nat.ne_of_gt (stmt.skips_pos rest)) with
          ⟨k, hSkips⟩
        rw [hSkips, hRest, List.drop_succ_cons]
        exact List.drop_suffix k later
      have hLess :
          Program.size program ≤
            TokenStream.weight (later.map some) :=
        Nat.le_trans hReading.size_le
          (TokenStream.weight_le_of_suffix
            (hDrop.map some))
      have hAll := hSeparated.weight_eq hReading.isCanonical
      rw [hRest, List.map_cons,
        ← List.singleton_append,
        TokenStream.weight_append] at hAll
      have hOne : TokenStream.weight [some token] = 1 := by
        simp [TokenStream.weight, hFirst]
      omega

/-
  All that a reading of separated statements passes are
  separators.
-/
theorem Reading.isSeparator_of_separated
    {tokens : List Token}
    {program : Program}
    {passed : List (List Token)}
    (hReading : Reading tokens program passed)
    (hSeparated : Separated program tokens) :
    ∀ mark ∈ passed, IsSeparator mark := by
  induction hReading with
  | nil =>
      intro mark hMem
      cases hMem
  | @cons stmt sign rest program passed hCanonical hSign
      hStop hRest ih =>
      generalize hTokens :
        stmt.yieldWith sign ++ rest = tokens at hSeparated
      cases hSeparated with
      | @cons _ other mark later _ hOther hMark hLater =>
          have hLength :
              (stmt.yieldWith sign).length =
                (stmt.yieldWith other).length := by
            rw [stmt.length_yieldWith, stmt.length_yieldWith]
          have hSame : rest = mark ++ later :=
            (List.append_inj hTokens hLength).2
          have hHead := hLater.isMark_head? hRest.isCanonical
          subst hSame
          intro listed hMem
          rcases hMark with rfl | ⟨token, hKind, rfl⟩
          · have hNil : later = [] :=
              hRest.eq_nil_of_separated hLater
            subst hNil
            rcases List.mem_cons.mp hMem with rfl | hMem
            · exact Or.inl List.take_nil
            · exact ih (by simpa using hLater) listed hMem
          · have hSkips : stmt.skips (token :: later) = 1 :=
              stmt.skips_cons token hHead
            have hDrop :
                ([token] ++ later).drop
                    (stmt.skips ([token] ++ later)) =
                  later :=
              congrArg (List.drop · (token :: later)) hSkips
            rcases List.mem_cons.mp hMem with rfl | hMem
            · exact
                Or.inr
                  ⟨token, hKind,
                    congrArg (List.take · (token :: later))
                      hSkips⟩
            · rw [hDrop] at ih
              exact ih hLater listed hMem

/-
  The exact condition under which no token of a source that
  is parsed without an error is dropped: the tokens that the
  parser passes behind each statement, which the reading of
  the source tells, are a semicolon or none.
-/
theorem clean_separated_iff
    (text : String)
    (program : Program)
    (hProgram : (source text).program = .ok program)
    (hLog : (source text).final.log = #[]) :
    (∃ passed,
        Reading (Scan.tokens text.toList)
          program passed) ∧
      ∀ passed,
        Reading (Scan.tokens text.toList) program passed →
          (Separated program (Scan.tokens text.toList) ↔
            ∀ mark ∈ passed, IsSeparator mark) := by
  constructor
  · exact source_clean_iff.mp ⟨hProgram, hLog⟩
  · intro passed hReading
    constructor
    · intro hSeparated
      exact hReading.isSeparator_of_separated hSeparated
    · intro hPassed
      exact hReading.separated hPassed

/- It holds of two numbers with a semicolon between them. -/
theorem clean_separated_semicolon :
    (source "1;2").final.log = #[] ∧
      Separated
        [.exprStmt ⟨.int, "1"⟩ (.int ⟨.int, "1"⟩ 1),
          .exprStmt ⟨.int, "2"⟩ (.int ⟨.int, "2"⟩ 2)]
        (Scan.tokens "1;2".toList) := by
  have hProgram :
      (source "1;2").program =
        .ok
          [.exprStmt ⟨.int, "1"⟩ (.int ⟨.int, "1"⟩ 1),
            .exprStmt ⟨.int, "2"⟩
              (.int ⟨.int, "2"⟩ 2)] :=
    eq_ok_of_toOption (by decide +kernel)
  have hLog : (source "1;2").final.log = #[] := by
    decide +kernel
  have hTokens :
      Scan.tokens "1;2".toList =
        [⟨.int, "1"⟩, Token.semicolon, ⟨.int, "2"⟩] := by
    decide +kernel
  have hSign : Token.assignSign.kind = .assign := rfl
  have hFirst :
      Stmt.IsCanonical
        (.exprStmt ⟨.int, "1"⟩ (.int ⟨.int, "1"⟩ 1)) := by
    decide
  have hSecond :
      Stmt.IsCanonical
        (.exprStmt ⟨.int, "2"⟩ (.int ⟨.int, "2"⟩ 2)) := by
    decide
  have hReading :
      Reading (Scan.tokens "1;2".toList)
        [.exprStmt ⟨.int, "1"⟩ (.int ⟨.int, "1"⟩ 1),
          .exprStmt ⟨.int, "2"⟩ (.int ⟨.int, "2"⟩ 2)]
        [[Token.semicolon], []] := by
    rw [hTokens]
    exact
      (Reading.last hSecond hSign).cons_semicolon hFirst
        hSign rfl
  have hIff := clean_separated_iff "1;2" _ hProgram hLog
  refine ⟨hLog, (hIff.2 _ hReading).mpr ?_⟩
  intro mark hMem
  rcases List.mem_cons.mp hMem with rfl | hMem
  · exact Or.inr ⟨Token.semicolon, rfl, rfl⟩
  · exact Or.inl (List.mem_singleton.mp hMem)

/-
  Of two numbers with a blank between them the second one is
  dropped, and no error is recorded.
-/
theorem clean_not_separated :
    (source "1 2").program =
        .ok [.exprStmt ⟨.int, "1"⟩ (.int ⟨.int, "1"⟩ 1)] ∧
      (source "1 2").final.log = #[] ∧
      ¬ Separated
        [.exprStmt ⟨.int, "1"⟩ (.int ⟨.int, "1"⟩ 1)]
        (Scan.tokens "1 2".toList) := by
  refine
    ⟨eq_ok_of_toOption (by decide +kernel),
      by decide +kernel, ?_⟩
  have hTokens :
      Scan.tokens "1 2".toList =
        [⟨.int, "1"⟩, ⟨.int, "2"⟩] := by
    decide +kernel
  rw [hTokens]
  intro hSeparated
  -- There are two tokens, and the statement has one.
  have hWeight := hSeparated.weight_eq (by decide)
  exact absurd hWeight (by decide)

end Parse

end LetLang

import LetLang.Proofs.Tree.Rendering
import LetLang.Proofs.Views

/-
  What is parsed from a text can be rendered legibly.

  The tokens of parsed statements were scanned, so an
  operator has one text for its kind, and so have the words
  that open a statement; an identifier is a name. As parsed
  statements are canonical, their tokens are of the kinds
  that stand at their places.

  Key definitions include:
    * `Token.fixed`

  Main declarations:
    * `Token.IsLexical.eq_of_fixed`
    * `Stmt.isLegible_of_isLexical`
    * `Stmt.render_eq_iff`
-/

namespace LetLang

------------------------------------------------------------
-- Texts of Scanned Tokens
------------------------------------------------------------

namespace Token

/-
  The tokens of operators and of the words that open a
  statement.
-/
def fixed : List Token :=
  [⟨.equal, "=="⟩, ⟨.notEqual, "!="⟩, ⟨.lessThan, "<"⟩,
    ⟨.greaterThan, ">"⟩, ⟨.plus, "+"⟩, ⟨.minus, "-"⟩,
    ⟨.asterisk, "*"⟩, ⟨.slash, "/"⟩, ⟨.bang, "!"⟩,
    ⟨.letWord, "let"⟩, ⟨.returnWord, "return"⟩]

/- A token that could be scanned is one if its kind is. -/
theorem IsLexical.eq_of_fixed
    {token other : Token}
    (hLexical : token.IsLexical)
    (hFixed : other ∈ fixed)
    (hKind : other.kind = token.kind) :
    token = other := by
  have hSigns :
      ∀ sign ∈ fixed, ∀ other ∈ fixed,
        other.kind = sign.kind → sign = other := by
    decide
  have hRows :
      ∀ row ∈ symbols, ∀ other ∈ fixed,
        other.kind = row.2 →
          ⟨row.2, String.singleton row.1⟩ = other := by
    decide
  have hWords :
      ∀ row ∈ reserved, ∀ other ∈ fixed,
        other.kind = row.2 → ⟨row.2, row.1⟩ = other := by
    decide
  have hKinds :
      ∀ other ∈ fixed,
        other.kind ≠ .int ∧ other.kind ≠ .ident ∧
          other.kind ≠ .illegal ∧ other.kind ≠ .assign := by
    decide
  rcases hKinds other hFixed with
    ⟨hInt, hIdent, hIllegal, hAssign⟩
  cases isFormed_iff.mpr hLexical with
  | @symbol c kind hSymbol =>
      exact hRows (c, kind) hSymbol other hFixed hKind
  | assign => exact (hAssign hKind).elim
  | bang =>
      exact hSigns ⟨.bang, "!"⟩ (by decide) other hFixed hKind
  | equal =>
      exact
        hSigns ⟨.equal, "=="⟩ (by decide) other hFixed hKind
  | notEqual =>
      exact
        hSigns ⟨.notEqual, "!="⟩ (by decide) other hFixed
          hKind
  | number hRun hDigits => exact (hInt hKind).elim
  | @word run hRun hLetters =>
      unfold kindOfWord at hKind ⊢
      cases hLookup :
          reserved.lookup (String.ofList run) with
      | none =>
          rw [hLookup] at hKind
          exact (hIdent hKind).elim
      | some kind =>
          rcases List.lookup_eq_some_iff.mp hLookup with
            ⟨before, after, hSplit, -⟩
          have hMem :
              (String.ofList run, kind) ∈ reserved := by
            rw [hSplit]
            exact
              List.mem_append_right _ (List.mem_cons_self ..)
          rw [hLookup] at hKind
          exact hWords _ hMem other hFixed hKind
  | illegal => exact (hIllegal hKind).elim

/- An identifier that could be scanned is a name. -/
theorem IsLexical.exists_name
    {token : Token}
    (hLexical : token.IsLexical)
    (hKind : token.kind = .ident) :
    ∃ word : Name, word.text = token.literal := by
  have hRows : ∀ row ∈ symbols, row.2 ≠ .ident := by
    decide
  cases isFormed_iff.mpr hLexical with
  | @symbol c kind hSymbol =>
      exact (hRows (c, kind) hSymbol hKind).elim
  | assign => cases hKind
  | bang => cases hKind
  | equal => cases hKind
  | notEqual => cases hKind
  | number hRun hDigits => cases hKind
  | @word run hRun hLetters =>
      refine
        ⟨⟨String.ofList run, ?_, ?_, hKind⟩, rfl⟩
      · rw [String.toList_ofList]
        exact hRun
      · rw [String.toList_ofList]
        exact hLetters
  | illegal => cases hKind

theorem IsLexical.mem_prefixTexts
    {token : Token}
    (hLexical : token.IsLexical)
    (hUnary : Parse.isUnary token.kind = true) :
    token.literal ∈ prefixTexts := by
  have hAll :
      ∀ kind ∈ Kind.all,
        Parse.isUnary kind = true →
          ∃ other ∈ fixed,
            other.kind = kind ∧
              other.literal ∈ prefixTexts := by
    decide
  rcases hAll token.kind (Kind.mem_all _) hUnary with
    ⟨other, hFixed, hKind, hText⟩
  rw [hLexical.eq_of_fixed hFixed hKind]
  exact hText

theorem IsLexical.mem_infixTexts
    {token : Token}
    (hLexical : token.IsLexical)
    (hLevel : token.kind.level?.isSome = true) :
    token.literal ∈ infixTexts := by
  have hAll :
      ∀ kind ∈ Kind.all,
        kind.level?.isSome = true →
          ∃ other ∈ fixed,
            other.kind = kind ∧
              other.literal ∈ infixTexts := by
    decide
  rcases hAll token.kind (Kind.mem_all _) hLevel with
    ⟨other, hFixed, hKind, hText⟩
  rw [hLexical.eq_of_fixed hFixed hKind]
  exact hText

end Token

------------------------------------------------------------
-- Parsed Statements
------------------------------------------------------------

/- A canonical expression of scanned tokens is legible. -/
theorem Expr.isLegible_of_isLexical
    {expr : Expr}
    (hCanonical : expr.IsCanonical)
    (hLexical : expr.toNode.IsLexical) :
    expr.IsLegible := by
  induction expr with
  | ident token =>
      have hName := Token.IsLexical.exists_name hLexical
      exact .leaf (.ident rfl (hName hCanonical))
  | int token value => exact .leaf (.int rfl)
  | bool token value =>
      cases value with
      | true => exact .leaf .trueWord
      | false => exact .leaf .falseWord
  | prefixOp token right ih =>
      rcases hCanonical with ⟨hUnary, hRight, -⟩
      exact
        .prefixOp (hLexical.1.mem_prefixTexts hUnary)
          (ih hRight hLexical.2)
  | infixOp token left right ihLeft ihRight =>
      rcases hCanonical with
        ⟨⟨level, hLevel, -⟩, hLeft, hRight⟩
      have hSome : token.kind.level?.isSome = true :=
        Option.isSome_of_mem hLevel
      exact
        .infixOp (hLexical.1.mem_infixTexts hSome)
          (ihLeft hLeft hLexical.2.1)
          (ihRight hRight hLexical.2.2)

namespace Stmt

/- A canonical statement of scanned tokens is legible. -/
theorem isLegible_of_isLexical
    {stmt : Stmt}
    (hCanonical : stmt.IsCanonical)
    (hLexical : stmt.toNode.IsLexical) :
    stmt.IsLegible := by
  cases stmt with
  | letStmt token name value =>
      rcases hCanonical with ⟨hToken, hName, hValue⟩
      rcases hLexical with ⟨hFirst, hSecond, hRest⟩
      have hSame : token = ⟨.letWord, "let"⟩ :=
        hFirst.eq_of_fixed (by decide) hToken.symm
      exact
        .letStmt (congrArg Token.literal hSame)
          (Token.IsLexical.exists_name hSecond hName)
          (Expr.isLegible_of_isLexical hValue hRest)
  | returnStmt token value =>
      rcases hCanonical with ⟨hToken, hValue⟩
      rcases hLexical with ⟨hFirst, hRest⟩
      have hSame : token = ⟨.returnWord, "return"⟩ :=
        hFirst.eq_of_fixed (by decide) hToken.symm
      exact
        .returnStmt (congrArg Token.literal hSame)
          (Expr.isLegible_of_isLexical hValue hRest)
  | exprStmt token expr =>
      exact
        .exprStmt
          (Expr.isLegible_of_isLexical hCanonical.2
            hLexical.2)

end Stmt

/- The statements of a parse come from its attempts. -/
theorem Parse.Course.exists_statement
    {state final : State}
    {result : Except Fault Program}
    (hCourse : Course state result final)
    {program : Program}
    (hResult : result = .ok program) :
    ∀ stmt ∈ program,
      ∃ before after,
        statement before = (.done stmt, after) := by
  induction hCourse generalizing program with
  | finished hFinished =>
      cases hResult
      exact List.forall_mem_nil _
  | @done state after final stmt later hUnfinished
      hAttempt hLater ih =>
      cases hResult
      exact
        List.forall_mem_cons.mpr
          ⟨⟨state, after, hAttempt⟩, ih rfl⟩
  | doneFatal hUnfinished hAttempt hLater ih =>
      cases hResult
  | failed hUnfinished hAttempt hLater ih =>
      exact ih hResult
  | fatal hUnfinished hAttempt => cases hResult

namespace Stmt

/-
  Renderings are unambiguous: two legible statements have
  the same text exactly if they are alike. All statements
  that are parsed from a text are legible.
-/
theorem render_eq_iff :
    (∀ a b : Stmt,
        a.IsLegible →
          b.IsLegible → (a.render = b.render ↔ a.Alike b)) ∧
      ∀ text program,
        (Parse.source text).program = .ok program →
          ∀ stmt ∈ program, stmt.IsLegible := by
  constructor
  · intro a b hA hB
    constructor
    · exact alike_of_render_eq hA hB
    · exact Alike.render_eq hA hB
  · intro text program hProgram stmt hMem
    rcases
      (Parse.course_program _).exists_statement hProgram stmt
        hMem with ⟨before, after, hAttempt⟩
    exact
      isLegible_of_isLexical
        (Parse.reads_of_statement hAttempt).1
        (Parse.isLexical_of_source hProgram stmt hMem)

/-
  A minus sign before the left operand of another one, and
  one before the whole: the first tree is parsed, the second
  one is not to be had from a text without parentheses. They
  are told apart by what is written of them.
-/
theorem render_eq_iff_minus :
    let minus : Token := ⟨.minus, "-"⟩
    let x : Expr := .ident ⟨.ident, "x"⟩
    let y : Expr := .ident ⟨.ident, "y"⟩
    let first : Stmt :=
      .exprStmt minus (.infixOp minus (.prefixOp minus x) y)
    let second : Stmt :=
      .exprStmt minus (.prefixOp minus (.infixOp minus x y))
    (Parse.source "-x - y").program = .ok [first] ∧
      first.IsLegible ∧ second.IsLegible ∧
      ¬ first.Alike second ∧
      first.render ≠ second.render := by
  intro minus x y first second
  have hProgram :
      (Parse.source "-x - y").program = .ok [first] :=
    Parse.eq_ok_of_toOption (by decide +kernel)
  have hX : x.IsLegible :=
    .leaf
      (.ident rfl
        ⟨⟨"x", by decide, List.all_eq_true.mp rfl, rfl⟩,
          rfl⟩)
  have hY : y.IsLegible :=
    .leaf
      (.ident rfl
        ⟨⟨"y", by decide, List.all_eq_true.mp rfl, rfl⟩,
          rfl⟩)
  have hFirst : first.IsLegible :=
    render_eq_iff.2 "-x - y" [first] hProgram first
      (List.mem_singleton_self _)
  have hSecond : second.IsLegible :=
    .exprStmt
      (.prefixOp (by decide) (.infixOp (by decide) hX hY))
  have hNot : ¬ first.Alike second := by
    intro hAlike
    dsimp only [first, second] at hAlike
    cases hAlike with
    | exprStmt hExpr => cases hExpr
  exact
    ⟨hProgram, hFirst, hSecond, hNot,
      mt (render_eq_iff.1 first second hFirst hSecond).mp
        hNot⟩

end Stmt

end LetLang

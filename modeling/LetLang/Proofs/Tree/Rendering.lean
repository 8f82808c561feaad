import LetLang.Proofs.Json.Layout
import LetLang.Proofs.Parse.Formula
import LetLang.Proofs.Scan.Decomposition
import LetLang.Proofs.Scan.Delimiter

/-
  Renderings are unambiguous: a tree is known from its text,
  up to what the text does not show of its tokens.

  A tree needs no canonical shape for this, as every operator
  stands in parentheses. Its leaves and operators must be
  written as the scanner could read them. Then a tree can be
  told from what follows it. The first token of the text is
  the leaf or a parenthesis. Behind a parenthesis there is a
  prefix operator, which no operand starts with, or a left
  operand. Where an operand ends is known from the operand,
  and an operator between operands ends at a space.

  Key definitions include:
    * `Expr.Leaf`
    * `Expr.IsLegible`
    * `Expr.Alike`
    * `Stmt.IsLegible`
    * `Stmt.Alike`

  Main declarations:
    * `Expr.render_append_inj`
    * `Stmt.Alike.render_eq`
    * `Stmt.alike_of_render_eq`
-/

namespace LetLang

open Text

------------------------------------------------------------
-- Texts of Operators
------------------------------------------------------------

namespace Token

/- The texts of the operators with one operand. -/
def prefixTexts : List String :=
  ["!", "-"]

/- The texts of the operators with two operands. -/
def infixTexts : List String :=
  ["==", "!=", "<", ">", "+", "-", "*", "/"]

/-
  An operator with one operand is a single character, which
  starts no operand.
-/
theorem exists_char_of_prefixTexts
    {text : String}
    (hText : text ∈ prefixTexts) :
    ∃ c,
      text.toList = [c] ∧ c ≠ '(' ∧ isDigit c = false ∧
        isLetter c = false := by
  simp only [prefixTexts, List.mem_cons, List.not_mem_nil,
    or_false] at hText
  rcases hText with rfl | rfl
  · exact ⟨'!', rfl, by decide⟩
  · exact ⟨'-', rfl, by decide⟩

theorem space_not_mem_of_infixTexts
    {text : String}
    (hText : text ∈ infixTexts) :
    ' ' ∉ text.toList := by
  have hAll : ∀ text ∈ infixTexts, ' ' ∉ text.toList := by
    decide
  exact hAll text hText

end Token

------------------------------------------------------------
-- Legible Expressions
------------------------------------------------------------

namespace Expr

/-
  The expression is a leaf that is written as a token: it is
  a name, a number or one of the two truth values.
-/
inductive Leaf : Expr → Token → Prop where
  | ident
      {token : Token}
      {text : String}
      (hText : token.literal = text)
      (hName : ∃ word : Name, word.text = text) :
      Leaf (.ident token) ⟨.ident, text⟩
  | int
      {token : Token}
      {value : Nat}
      {text : String}
      (hText : toString value = text) :
      Leaf (.int token value) ⟨.int, text⟩
  | trueWord
      {token : Token} :
      Leaf (.bool token true) ⟨.trueWord, "true"⟩
  | falseWord
      {token : Token} :
      Leaf (.bool token false) ⟨.falseWord, "false"⟩

/-
  Every name is one that could be scanned, and the operators
  are among those that there are. The operators may have any
  operands.
-/
inductive IsLegible : Expr → Prop where
  | leaf
      {expr : Expr}
      {token : Token}
      (hLeaf : Leaf expr token) :
      IsLegible expr
  | prefixOp
      {token : Token}
      {right : Expr}
      (hToken : token.literal ∈ Token.prefixTexts)
      (hRight : right.IsLegible) :
      IsLegible (.prefixOp token right)
  | infixOp
      {token : Token}
      {left right : Expr}
      (hToken : token.literal ∈ Token.infixTexts)
      (hLeft : left.IsLegible)
      (hRight : right.IsLegible) :
      IsLegible (.infixOp token left right)

/-
  The expressions have the same shape and in it the same
  names, operators and values.
-/
inductive Alike : Expr → Expr → Prop where
  | ident
      {first second : Token}
      (hName : first.literal = second.literal) :
      Alike (.ident first) (.ident second)
  | int
      {first second : Token}
      {value : Nat} :
      Alike (.int first value) (.int second value)
  | bool
      {first second : Token}
      {value : Bool} :
      Alike (.bool first value) (.bool second value)
  | prefixOp
      {first second : Token}
      {right otherRight : Expr}
      (hOperator : first.literal = second.literal)
      (hRight : Alike right otherRight) :
      Alike (.prefixOp first right)
        (.prefixOp second otherRight)
  | infixOp
      {first second : Token}
      {left right otherLeft otherRight : Expr}
      (hOperator : first.literal = second.literal)
      (hLeft : Alike left otherLeft)
      (hRight : Alike right otherRight) :
      Alike (.infixOp first left right)
        (.infixOp second otherLeft otherRight)

/- Expressions that are alike have the same text. -/
theorem Alike.render_eq
    {a b : Expr}
    (h : a.Alike b) :
    a.render = b.render := by
  induction h with
  | ident hName => exact hName
  | int => rfl
  | @bool first second value =>
      cases value with
      | true => rfl
      | false => rfl
  | prefixOp hOperator hRight ih =>
      rw [render_prefixOp, render_prefixOp, hOperator, ih]
  | infixOp hOperator hLeft hRight ihLeft ihRight =>
      rw [render_infixOp, render_infixOp, hOperator, ihLeft,
        ihRight]

------------------------------------------------------------
-- Where an Expression Ends
------------------------------------------------------------

variable
  {a b : Expr}
  {token : Token}
  {text other : List Char}

/- A leaf is written as a token that could be scanned. -/
theorem Leaf.isLexical
    (h : Leaf a token) :
    token.IsLexical := by
  cases h with
  | ident hText hName =>
      rcases hName with ⟨word, rfl⟩
      have hWord :
          Scan.word word.text.toList =
            ⟨.ident, word.text⟩ := by
        simp [Scan.word, word.unreserved]
      rw [← hWord]
      exact .word word.ne_nil word.isLetter
  | @int token value text hText =>
      have hNumber :
          Scan.number (toString value).toList =
            ⟨.int, text⟩ := by
        simp [Scan.number, hText]
      rw [← hNumber]
      apply Token.IsLexical.number
      · simp
      · intro c hMem
        exact Json.isDigit_of_mem_repr hMem
  | trueWord =>
      exact
        @Token.IsLexical.word "true".toList (by decide)
          (List.all_eq_true.mp rfl)
  | falseWord =>
      exact
        @Token.IsLexical.word "false".toList (by decide)
          (List.all_eq_true.mp rfl)

theorem Leaf.render_eq
    (h : Leaf a token) :
    a.render = token.literal := by
  cases h with
  | ident hText hName => exact hText
  | int hText => exact hText
  | trueWord => rfl
  | falseWord => rfl

theorem Leaf.kind_int_or_isWordLike
    (h : Leaf a token) :
    token.kind = .int ∨ token.kind.isWordLike = true := by
  cases h with
  | ident hText hName => exact Or.inr rfl
  | int hText => exact Or.inl rfl
  | trueWord => exact Or.inr rfl
  | falseWord => exact Or.inr rfl

/- Leaves that are written as one token are alike. -/
theorem Leaf.alike
    (hA : Leaf a token)
    (hB : Leaf b token) :
    a.Alike b := by
  cases hA with
  | ident hText hName =>
      cases hB with
      | ident hOther hName =>
          exact .ident (hText.trans hOther.symm)
  | int hText =>
      cases hB with
      | int hOther =>
          have hSame := hText.trans hOther.symm
          rw [Json.repr_inj (congrArg String.toList hSame)]
          exact .int
  | trueWord =>
      cases hB with
      | trueWord => exact .bool
  | falseWord =>
      cases hB with
      | falseWord => exact .bool

/- The first token of a leaf is all of it. -/
theorem Leaf.first?_eq
    (h : Leaf a token)
    (hText : Scan.Delimits text) :
    Scan.first? (a.render.toList ++ text) =
      some (token, text) := by
  rw [h.render_eq]
  exact
    Scan.first?_of_lexical h.isLexical
      (Token.endsBefore_of_classes hText token)

theorem prefixOp_append
    (token : Token)
    (right : Expr)
    (text : List Char) :
    (prefixOp token right).render.toList ++ text =
      '(' :: (token.literal.toList
        ++ (right.render.toList ++ ')' :: text)) := by
  simp [render_prefixOp]

theorem infixOp_append
    (token : Token)
    (left right : Expr)
    (text : List Char) :
    (infixOp token left right).render.toList ++ text =
      '(' :: (left.render.toList
        ++ ' ' :: (token.literal.toList
          ++ ' ' :: (right.render.toList
            ++ ')' :: text))) := by
  simp [render_infixOp]

/- A parenthesis is a token by itself. -/
theorem first?_parenthesis
    (text : List Char) :
    Scan.first? ('(' :: text) =
      some (⟨.lparen, "("⟩, text) := by
  rw [Scan.first?_cons (by decide),
    Scan.lexeme_of_standsAlone (by decide)]
  rfl

/- What is no leaf stands in parentheses. -/
theorem IsLegible.leaf_or_parenthesis
    (h : a.IsLegible) :
    (∃ token, Leaf a token) ∨
      ∃ inner, a.render.toList = '(' :: inner := by
  cases h with
  | leaf hLeaf => exact Or.inl ⟨_, hLeaf⟩
  | @prefixOp token right hToken hRight =>
      have hRender := prefixOp_append token right []
      rw [List.append_nil] at hRender
      exact Or.inr ⟨_, hRender⟩
  | @infixOp token left right hToken hLeft hRight =>
      have hRender := infixOp_append token left right []
      rw [List.append_nil] at hRender
      exact Or.inr ⟨_, hRender⟩

/- A legible expression starts with no prefix operator. -/
theorem IsLegible.exists_head
    (h : a.IsLegible) :
    ∃ c rest,
      a.render.toList = c :: rest ∧
        (c = '(' ∨ isDigit c = true ∨ isLetter c = true) := by
  rcases h.leaf_or_parenthesis with
    ⟨token, hLeaf⟩ | ⟨inner, hInner⟩
  · rcases hLeaf.isLexical.exists_head with
      ⟨c, rest, hLiteral, -, hDigit, hLetter⟩
    rw [hLeaf.render_eq]
    refine ⟨c, rest, hLiteral, Or.inr ?_⟩
    rw [hDigit, hLetter]
    exact hLeaf.kind_int_or_isWordLike
  · exact ⟨'(', inner, hInner, Or.inl rfl⟩

/- A leaf starts with no parenthesis. -/
theorem Leaf.append_ne
    (h : Leaf a token)
    (hText : Scan.Delimits text)
    (inner : List Char) :
    a.render.toList ++ text ≠ '(' :: inner := by
  intro hSame
  have hFirst := h.first?_eq hText
  rw [hSame, first?_parenthesis] at hFirst
  cases hFirst
  cases h

/- A leaf can be told from what follows it. -/
theorem Leaf.append_inj
    (hA : Leaf a token)
    (hB : b.IsLegible)
    (hText : Scan.Delimits text)
    (hOther : Scan.Delimits other)
    (h : a.render.toList ++ text = b.render.toList ++ other) :
    a.Alike b ∧ text = other := by
  rcases hB.leaf_or_parenthesis with
    ⟨second, hLeaf⟩ | ⟨inner, hInner⟩
  · have hFirst := hA.first?_eq hText
    rw [h, hLeaf.first?_eq hOther] at hFirst
    cases hFirst
    exact ⟨hA.alike hLeaf, rfl⟩
  · rw [hInner] at h
    exact (hA.append_ne hText _ h).elim

/- A prefix operator can be told from its operand. -/
theorem prefixTexts_append_inj
    {first second : String}
    (hFirst : first ∈ Token.prefixTexts)
    (hSecond : second ∈ Token.prefixTexts)
    (h : first.toList ++ text = second.toList ++ other) :
    first = second ∧ text = other := by
  rcases Token.exists_char_of_prefixTexts hFirst with
    ⟨c, hC, -⟩
  rcases Token.exists_char_of_prefixTexts hSecond with
    ⟨d, hD, -⟩
  rw [hC, hD] at h
  rcases List.cons.inj h with ⟨rfl, hRest⟩
  exact ⟨String.toList_inj.mp (hC.trans hD.symm), hRest⟩

/- A prefix operator is no operand. -/
theorem IsLegible.append_ne
    (h : a.IsLegible)
    {operator : String}
    (hOperator : operator ∈ Token.prefixTexts) :
    operator.toList ++ text ≠ a.render.toList ++ other := by
  rcases Token.exists_char_of_prefixTexts hOperator with
    ⟨c, hC, hParenthesis, hDigit, hLetter⟩
  rcases h.exists_head with ⟨d, rest, hD, hClass⟩
  rw [hC, hD]
  intro hSame
  rcases List.cons.inj hSame with ⟨rfl, -⟩
  rcases hClass with rfl | hIs | hIs
  · exact hParenthesis rfl
  · rw [hDigit] at hIs
    cases hIs
  · rw [hLetter] at hIs
    cases hIs

/-
  A legible expression can be told from what follows it, if
  that starts with no character of a run. The induction is
  on the first of two expressions. What is left of the two
  texts behind an operand is the same, and starts with a
  parenthesis or a space.
-/
theorem render_append_inj
    (hA : a.IsLegible)
    (hB : b.IsLegible)
    (hText : Scan.Delimits text)
    (hOther : Scan.Delimits other)
    (h : a.render.toList ++ text = b.render.toList ++ other) :
    a.Alike b ∧ text = other := by
  have hClose
      (rest : List Char) :
      Scan.Delimits (')' :: rest) :=
    Scan.delimits_cons (by decide) rest
  have hSpace
      (rest : List Char) :
      Scan.Delimits (' ' :: rest) :=
    Scan.delimits_cons (by decide) rest
  induction hA generalizing b text other with
  | leaf hLeaf => exact hLeaf.append_inj hB hText hOther h
  | @prefixOp token right hToken hRight ih =>
      rw [prefixOp_append] at h
      cases hB with
      | leaf hLeaf =>
          exact (hLeaf.append_ne hOther _ h.symm).elim
      | @prefixOp second otherRight hSecond hOtherRight =>
          rw [prefixOp_append] at h
          rcases
            prefixTexts_append_inj hToken hSecond
              (List.cons.inj h).2 with ⟨hOperator, hRest⟩
          rcases ih hOtherRight (hClose text) (hClose other)
              hRest with ⟨hAlike, hTail⟩
          exact
            ⟨.prefixOp hOperator hAlike,
              (List.cons.inj hTail).2⟩
      | @infixOp second left otherRight hSecond hLeft
          hOtherRight =>
          rw [infixOp_append] at h
          exact
            (hLeft.append_ne hToken (List.cons.inj h).2).elim
  | @infixOp token left right hToken hLeft hRight ihLeft
      ihRight =>
      rw [infixOp_append] at h
      cases hB with
      | leaf hLeaf =>
          exact (hLeaf.append_ne hOther _ h.symm).elim
      | @prefixOp second otherRight hSecond hOtherRight =>
          rw [prefixOp_append] at h
          exact
            (hLeft.append_ne hSecond
              (List.cons.inj h.symm).2).elim
      | @infixOp second otherLeft otherRight hSecond
          hOtherLeft hOtherRight =>
          rw [infixOp_append] at h
          rcases ihLeft hOtherLeft (hSpace _) (hSpace _)
              (List.cons.inj h).2 with
            ⟨hAlikeLeft, hBehind⟩
          rcases
            append_cons_inj
              (Token.space_not_mem_of_infixTexts hToken)
              (Token.space_not_mem_of_infixTexts hSecond)
              (List.cons.inj hBehind).2 with
            ⟨hOperator, hRest⟩
          rcases ihRight hOtherRight (hClose text)
              (hClose other) hRest with
            ⟨hAlikeRight, hTail⟩
          exact
            ⟨.infixOp (String.toList_inj.mp hOperator)
                hAlikeLeft hAlikeRight,
              (List.cons.inj hTail).2⟩

/- No legible expression is a word with more behind it. -/
theorem IsLegible.word_append_ne
    (h : a.IsLegible)
    {run : List Char}
    (hRun : run ≠ [])
    (hLetters : run.all isLetter = true)
    (rest : List Char) :
    a.render.toList ≠ run ++ ' ' :: rest := by
  intro hSame
  have hSpace : Scan.Delimits (' ' :: rest) :=
    Scan.delimits_cons (by decide) rest
  have hFirst :
      Scan.first? a.render.toList =
        some (Scan.word run, ' ' :: rest) := by
    have hWord :=
      Scan.first?_of_lexical
        (.word hRun (List.all_eq_true.mp hLetters))
        (Token.endsBefore_of_classes hSpace (Scan.word run))
    rw [hSame, ← hWord]
    simp [Scan.word]
  rcases h.leaf_or_parenthesis with
    ⟨token, hLeaf⟩ | ⟨inner, hInner⟩
  · have hAll := hLeaf.first?_eq Scan.delimits_nil
    rw [List.append_nil, hFirst] at hAll
    cases hAll
  · rw [hInner, first?_parenthesis] at hFirst
    have hToken := (Prod.mk.inj (Option.some.inj hFirst)).1
    exact
      Scan.kind_word_ne rfl run
        (congrArg Token.kind hToken.symm)

end Expr

------------------------------------------------------------
-- Legible Statements
------------------------------------------------------------

namespace Stmt

/- The statement opens with its word and has legible parts. -/
inductive IsLegible : Stmt → Prop where
  | letStmt
      {token name : Token}
      {value : Expr}
      (hToken : token.literal = "let")
      (hName : ∃ word : Name, word.text = name.literal)
      (hValue : value.IsLegible) :
      IsLegible (.letStmt token name value)
  | returnStmt
      {token : Token}
      {value : Expr}
      (hToken : token.literal = "return")
      (hValue : value.IsLegible) :
      IsLegible (.returnStmt token value)
  | exprStmt
      {token : Token}
      {expr : Expr}
      (hExpr : expr.IsLegible) :
      IsLegible (.exprStmt token expr)

/-
  The statements are of the same form, with the same name if
  there is one, and their expressions are alike.
-/
inductive Alike : Stmt → Stmt → Prop where
  | letStmt
      {first second name otherName : Token}
      {value otherValue : Expr}
      (hName : name.literal = otherName.literal)
      (hValue : value.Alike otherValue) :
      Alike (.letStmt first name value)
        (.letStmt second otherName otherValue)
  | returnStmt
      {first second : Token}
      {value otherValue : Expr}
      (hValue : value.Alike otherValue) :
      Alike (.returnStmt first value)
        (.returnStmt second otherValue)
  | exprStmt
      {first second : Token}
      {expr otherExpr : Expr}
      (hExpr : expr.Alike otherExpr) :
      Alike (.exprStmt first expr)
        (.exprStmt second otherExpr)

theorem toList_render_letStmt
    {token : Token}
    (hToken : token.literal = "let")
    (name : Token)
    (value : Expr) :
    (letStmt token name value).render.toList =
      "let".toList
        ++ ' ' :: (name.literal.toList
          ++ ' ' :: '=' :: ' ' :: (value.render.toList
            ++ [';'])) := by
  simp [render, toNode, Node.render, Expr.render, hToken]

theorem toList_render_returnStmt
    {token : Token}
    (hToken : token.literal = "return")
    (value : Expr) :
    (returnStmt token value).render.toList =
      "return".toList
        ++ ' ' :: (value.render.toList ++ [';']) := by
  simp [render, toNode, Node.render, Expr.render, hToken]

/- Statements that are alike have the same text. -/
theorem Alike.render_eq
    {a b : Stmt}
    (hA : a.IsLegible)
    (hB : b.IsLegible)
    (h : a.Alike b) :
    a.render = b.render := by
  cases h with
  | letStmt hName hValue =>
      cases hA with
      | letStmt hFirst =>
          cases hB with
          | letStmt hSecond =>
              apply String.toList_inj.mp
              rw [toList_render_letStmt hFirst,
                toList_render_letStmt hSecond, hName,
                hValue.render_eq]
  | returnStmt hValue =>
      cases hA with
      | returnStmt hFirst =>
          cases hB with
          | returnStmt hSecond =>
              apply String.toList_inj.mp
              rw [toList_render_returnStmt hFirst,
                toList_render_returnStmt hSecond,
                hValue.render_eq]
  | exprStmt hExpr => exact hExpr.render_eq

theorem space_not_mem_of_name
    {text : String}
    (hName : ∃ word : Name, word.text = text) :
    ' ' ∉ text.toList := by
  rcases hName with ⟨word, rfl⟩
  intro hMem
  have hLetter := word.isLetter ' ' hMem
  exact absurd hLetter (by decide)

/- A statement is known from its text, but for its tokens. -/
theorem alike_of_render_eq
    {a b : Stmt}
    (hA : a.IsLegible)
    (hB : b.IsLegible)
    (h : a.render = b.render) :
    a.Alike b := by
  have hList := congrArg String.toList h
  have hMark : Scan.Delimits [';'] :=
    Scan.delimits_cons (by decide) []
  cases hA with
  | @letStmt first name value hFirst hName hValue =>
      rw [toList_render_letStmt hFirst] at hList
      cases hB with
      | letStmt hSecond hOtherName hOther =>
          rw [toList_render_letStmt hSecond] at hList
          have hBehind :=
            (List.cons.inj (List.append_cancel_left hList)).2
          rcases
            append_cons_inj (space_not_mem_of_name hName)
              (space_not_mem_of_name hOtherName) hBehind with
            ⟨hSame, hRest⟩
          have hValues :=
            (List.cons.inj (List.cons.inj hRest).2).2
          exact
            .letStmt (String.toList_inj.mp hSame)
              (Expr.render_append_inj hValue hOther hMark
                hMark hValues).1
      | returnStmt hSecond hOther =>
          rw [toList_render_returnStmt hSecond] at hList
          simp at hList
      | exprStmt hOther =>
          exact
            (hOther.word_append_ne (by decide) (by decide) _
              hList.symm).elim
  | @returnStmt first value hFirst hValue =>
      rw [toList_render_returnStmt hFirst] at hList
      cases hB with
      | letStmt hSecond hOtherName hOther =>
          rw [toList_render_letStmt hSecond] at hList
          simp at hList
      | returnStmt hSecond hOther =>
          rw [toList_render_returnStmt hSecond] at hList
          have hValues :=
            (List.cons.inj (List.append_cancel_left hList)).2
          exact
            .returnStmt
              (Expr.render_append_inj hValue hOther hMark
                hMark hValues).1
      | exprStmt hOther =>
          exact
            (hOther.word_append_ne (by decide) (by decide) _
              hList.symm).elim
  | @exprStmt first expr hExpr =>
      cases hB with
      | letStmt hSecond hOtherName hOther =>
          rw [toList_render_letStmt hSecond] at hList
          exact
            (hExpr.word_append_ne (by decide) (by decide) _
              hList).elim
      | returnStmt hSecond hOther =>
          rw [toList_render_returnStmt hSecond] at hList
          exact
            (hExpr.word_append_ne (by decide) (by decide) _
              hList).elim
      | @exprStmt second other hOther =>
          have hTexts :
              expr.render.toList ++ [] =
                other.render.toList ++ [] :=
            congrArg (· ++ []) hList
          exact
            .exprStmt
              (Expr.render_append_inj hExpr hOther
                Scan.delimits_nil Scan.delimits_nil hTexts).1

end Stmt

end LetLang

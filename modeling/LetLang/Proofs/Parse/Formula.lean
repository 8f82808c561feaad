import LetLang.Proofs.Numeral
import LetLang.Proofs.Parse.Reading
import LetLang.Proofs.Scan.Concatenation
import LetLang.Proofs.Tree.Yard

/-
  Formulas: operands with operators between them, parsed as
  the shunting yard builds them.

  An operand is a name, a number or a truth value behind any
  number of signs. A formula is written with blanks around
  its operators. The yard builds a canonical tree with the
  tokens of the formula, and this is what a parse of them
  has to give. As the yard makes the same steps on texts as
  on trees, what it builds of the texts of the operands is
  the text of that tree.

  Key definitions include:
    * `Atom`
    * `Operand`
    * `Formula`
    * `Formula.trees`
    * `Formula.texts`
    * `Formula.WrittenAs`

  Main declarations:
    * `Formula.exists_tree`
    * `Formula.WrittenAs.spelling`
    * `Parse.source_formula`
-/

------------------------------------------------------------
-- Atoms
------------------------------------------------------------

namespace LetLang

open Text

/- A run of letters that is not reserved. -/
structure Name where
  text : String
  ne_nil : text.toList ≠ []
  isLetter : ∀ c ∈ text.toList, Text.isLetter c = true
  unreserved : Token.kindOfWord text = .ident

/- A run of digits whose value can be read. -/
structure Figure where
  text : String
  fits : Numeral.Fits text

theorem Figure.isDigit
    (figure : Figure) :
    figure.text.toList ≠ [] ∧
      ∀ c ∈ figure.text.toList, Text.isDigit c = true :=
  isDigits_iff.mp figure.fits.isDigits

/- An operand without signs. -/
inductive Atom where
  | name (word : Name)
  | number (figure : Figure)
  | truth (value : Bool)

namespace Atom

/- The token of an atom. -/
def token : Atom → Token
  | .name word => ⟨.ident, word.text⟩
  | .number figure => ⟨.int, figure.text⟩
  | .truth true => ⟨.trueWord, "true"⟩
  | .truth false => ⟨.falseWord, "false"⟩

/- The tree of an atom. -/
def expr : Atom → Expr
  | .name word => .ident ⟨.ident, word.text⟩
  | .number figure =>
      .int ⟨.int, figure.text⟩
        (Numeral.value figure.text.toList)
  | .truth true => .bool ⟨.trueWord, "true"⟩ true
  | .truth false => .bool ⟨.falseWord, "false"⟩ false

/- The text of an atom. A number has no leading zeros. -/
def text : Atom → String
  | .name word => word.text
  | .number figure =>
      toString (Numeral.value figure.text.toList)
  | .truth true => "true"
  | .truth false => "false"

theorem expr_eq
    (atom : Atom) :
    atom.expr.render = atom.text ∧
      atom.expr.yield = [atom.token] := by
  rcases atom with word | figure | _ | _ <;>
    exact ⟨rfl, rfl⟩

theorem isCanonical_expr
    (atom : Atom) :
    atom.expr.IsCanonical ∧ ¬ atom.expr.IsInfix := by
  rcases atom with word | figure | _ | _
  · exact ⟨rfl, fun hInfix => hInfix⟩
  · refine ⟨⟨rfl, ?_⟩, fun hInfix => hInfix⟩
    exact Token.integer_eq_ok_iff.mpr ⟨figure.fits, rfl⟩
  · exact ⟨⟨Or.inr rfl, rfl⟩, fun hInfix => hInfix⟩
  · exact ⟨⟨Or.inl rfl, rfl⟩, fun hInfix => hInfix⟩

theorem isLexical_token
    (atom : Atom) :
    atom.token.IsLexical := by
  rcases atom with word | figure | _ | _
  · have hWord :
        Scan.word word.text.toList =
          ⟨.ident, word.text⟩ := by
      simp [Scan.word, word.unreserved]
    rw [token, ← hWord]
    exact .word word.ne_nil word.isLetter
  · have hNumber :
        Scan.number figure.text.toList =
          ⟨.int, figure.text⟩ := by
      simp [Scan.number]
    rw [token, ← hNumber]
    exact .number figure.isDigit.1 figure.isDigit.2
  · have hLetters :
        ['f', 'a', 'l', 's', 'e'].all isLetter = true := by
      decide
    exact
      .word (List.cons_ne_nil _ _)
        (List.all_eq_true.mp hLetters)
  · have hLetters :
        ['t', 'r', 'u', 'e'].all isLetter = true := by
      decide
    exact
      .word (List.cons_ne_nil _ _)
        (List.all_eq_true.mp hLetters)

/- No atom starts with an equals sign. -/
theorem head?_ne
    (atom : Atom) :
    ∀ c ∈ atom.token.literal.toList.head?, c ≠ '=' := by
  rcases atom with word | figure | _ | _
  · rintro c hHead rfl
    have hMem := List.mem_of_mem_head? hHead
    exact absurd (word.isLetter '=' hMem) (by decide)
  · rintro c hHead rfl
    have hMem := List.mem_of_mem_head? hHead
    exact absurd (figure.isDigit.2 '=' hMem) (by decide)
  · rintro c ⟨⟩
    decide
  · rintro c ⟨⟩
    decide

end Atom

------------------------------------------------------------
-- Operands
------------------------------------------------------------

/- The operators with one operand. -/
inductive Sign where
  | bang
  | minus
  deriving DecidableEq, Repr

/- The token of a sign. -/
def Sign.token : Sign → Token
  | .bang => ⟨.bang, "!"⟩
  | .minus => ⟨.minus, "-"⟩

/- An atom with any number of signs in front of it. -/
structure Operand where
  signs : List Sign
  atom : Atom

namespace Operand

/- The tokens of an operand. -/
def tokens
    (operand : Operand) : List Token :=
  operand.signs.map Sign.token ++ [operand.atom.token]

/- The tree of an operand: the signs are nested. -/
def expr
    (operand : Operand) : Expr :=
  operand.signs.foldr
    (fun sign right => .prefixOp sign.token right)
    operand.atom.expr

/- The text of an operand, with parentheses for each sign. -/
def text
    (operand : Operand) : String :=
  operand.signs.foldr
    (fun sign right =>
      "(" ++ sign.token.literal ++ right ++ ")")
    operand.atom.text

/- The tree of an operand has its text and its tokens. -/
theorem expr_eq
    (operand : Operand) :
    operand.expr.render = operand.text ∧
      operand.expr.yield = operand.tokens := by
  rcases operand with ⟨signs, atom⟩
  unfold expr text tokens
  induction signs with
  | nil => exact atom.expr_eq
  | cons sign signs ih =>
      rcases ih with ⟨hText, hYield⟩
      simp only [List.foldr_cons, List.map_cons,
        List.cons_append]
      rw [Expr.render_prefixOp, hText]
      exact ⟨rfl, congrArg (sign.token :: ·) hYield⟩

theorem isCanonical_expr
    (operand : Operand) :
    operand.expr.IsCanonical ∧ ¬ operand.expr.IsInfix := by
  rcases operand with ⟨signs, atom⟩
  unfold expr
  induction signs with
  | nil => exact atom.isCanonical_expr
  | cons sign signs ih =>
      have hUnary : Parse.isUnary sign.token.kind = true := by
        cases sign <;> rfl
      exact ⟨⟨hUnary, ih⟩, fun hInfix => hInfix⟩

end Operand

------------------------------------------------------------
-- Formulas
------------------------------------------------------------

/- Operands with an operator between any two of them. -/
structure Formula where
  first : Operand
  rest : List (Operator × Operand)

namespace Formula

/- The tokens of a formula. -/
def tokens
    (formula : Formula) : List Token :=
  formula.first.tokens
    ++ formula.rest.flatMap
      (fun next => next.1.token :: next.2.tokens)

/- What the shunting yard puts out for the trees. -/
def trees
    (formula : Formula) : List Expr :=
  Yard.run Expr.join formula.first.expr
    (formula.rest.map (fun next => (next.1, next.2.expr)))

/- The text of two operands under an operator. -/
def joinTexts
    (operator : Operator)
    (left right : String) : String :=
  "(" ++ left ++ " " ++ operator.token.literal ++ " "
    ++ right ++ ")"

/- What the shunting yard puts out for the texts. -/
def texts
    (formula : Formula) : List String :=
  Yard.run joinTexts formula.first.text
    (formula.rest.map (fun next => (next.1, next.2.text)))

/- The yard puts out the texts of the trees. -/
theorem texts_eq
    (formula : Formula) :
    formula.texts = formula.trees.map Expr.render := by
  have hJoin
      (operator : Operator)
      (left right : Expr) :
      (Expr.join operator left right).render =
        joinTexts operator left.render right.render :=
    rfl
  unfold texts trees
  rw [← Yard.run_map hJoin, List.map_map,
    formula.first.expr_eq.1]
  apply congrArg
  apply List.map_congr_left
  intro next hMem
  exact Prod.ext rfl next.2.expr_eq.1.symm

/-
  The yard puts out one tree, which is canonical and has the
  tokens of the formula.
-/
theorem exists_tree
    (formula : Formula) :
    ∃ expr,
      formula.trees = [expr] ∧ expr.IsCanonical ∧
        expr.yield = formula.tokens := by
  have hRest :
      ∀ next ∈
        formula.rest.map
          (fun next => (next.1, next.2.expr)),
        next.2.IsCanonical ∧ ¬ next.2.IsInfix := by
    intro next hMem
    rcases List.mem_map.mp hMem with ⟨own, -, rfl⟩
    exact own.2.isCanonical_expr
  rcases Yard.exists_run_eq formula.first.isCanonical_expr
      hRest with
    ⟨expr, hRun, hCanonical, hYield⟩
  refine ⟨expr, hRun, hCanonical, ?_⟩
  rw [hYield, List.flatMap_map, formula.first.expr_eq.2]
  simp only [Operand.expr_eq]
  rfl

end Formula

------------------------------------------------------------
-- Writing a Formula
------------------------------------------------------------

/-
  The texts of an operand: blanks may stand in front of its
  signs and its atom.
-/
inductive Operand.WrittenAs :
    Operand → List Char → Prop where
  | atom
      {atom : Atom}
      {blanks : List Char}
      (hBlanks : ∀ c ∈ blanks, isSpace c = true) :
      WrittenAs ⟨[], atom⟩
        (blanks ++ atom.token.literal.toList)
  | sign
      {sign : Sign}
      {signs : List Sign}
      {atom : Atom}
      {blanks text : List Char}
      (hBlanks : ∀ c ∈ blanks, isSpace c = true)
      (hText : WrittenAs ⟨signs, atom⟩ text) :
      WrittenAs ⟨sign :: signs, atom⟩
        (blanks ++ (sign.token.literal.toList ++ text))

/-
  The texts of a formula: there is at least one blank in
  front of every operator and behind it, and there may be
  more, also at both ends.
-/
inductive Formula.WrittenAs :
    Formula → List Char → Prop where
  | last
      {operand : Operand}
      {text blanks : List Char}
      (hText : operand.WrittenAs text)
      (hBlanks : ∀ c ∈ blanks, isSpace c = true) :
      WrittenAs ⟨operand, []⟩ (text ++ blanks)
  | cons
      {operand next : Operand}
      {operator : Operator}
      {rest : List (Operator × Operand)}
      {text before later : List Char}
      {blank : Char}
      (hText : operand.WrittenAs text)
      (hSome : before ≠ [])
      (hBefore : ∀ c ∈ before, isSpace c = true)
      (hBehind : isSpace blank = true)
      (hLater : WrittenAs ⟨next, rest⟩ later) :
      WrittenAs ⟨operand, (operator, next) :: rest⟩
        (text
          ++ (before
            ++ (operator.token.literal.toList
              ++ (blank :: later))))

/- No operand starts with an equals sign. -/
theorem Operand.WrittenAs.head?_ne
    {operand : Operand}
    {text : List Char}
    (hText : operand.WrittenAs text) :
    ∀ c ∈ text.head?, c ≠ '=' := by
  have hBlank
      {blanks own : List Char}
      (hBlanks : ∀ c ∈ blanks, isSpace c = true)
      (hOwn : ∀ c ∈ own.head?, c ≠ '=') :
      ∀ c ∈ (blanks ++ own).head?, c ≠ '=' := by
    cases blanks with
    | nil => exact hOwn
    | cons blank blanks =>
        rintro c ⟨⟩
        exact
          (classes_of_isSpace
            (hBlanks blank (List.mem_cons_self ..))).2.2
  cases hText with
  | @atom atom blanks hBlanks =>
      exact hBlank hBlanks atom.head?_ne
  | @sign sign signs atom blanks text hBlanks hText =>
      apply hBlank hBlanks
      cases sign <;> rintro c ⟨⟩ <;> decide

/- The text of an operand is scanned as its tokens. -/
theorem Operand.WrittenAs.spelling
    {operand : Operand}
    {text : List Char}
    (hText : operand.WrittenAs text) :
    Scan.Spelling operand.tokens text := by
  induction hText with
  | @atom atom blanks hBlanks =>
      exact .single hBlanks atom.isLexical_token
  | @sign sign signs atom blanks text hBlanks hText ih =>
      have hHead := hText.head?_ne
      cases sign with
      | bang =>
          refine .cons hBlanks .bang ?_ ih
          intro c hMem
          exact ⟨nofun, nofun, fun _ => hHead c hMem⟩
      | minus =>
          refine
            .cons hBlanks (.single (c := '-') (by decide)) ?_
              ih
          intro c hMem
          exact ⟨nofun, nofun, fun _ => hHead c hMem⟩

theorem Operator.isLexical_token
    (operator : Operator) :
    operator.token.IsLexical := by
  cases operator with
  | equal => exact .equal
  | notEqual => exact .notEqual
  | lessThan => exact .single (c := '<') (by decide)
  | greaterThan => exact .single (c := '>') (by decide)
  | plus => exact .single (c := '+') (by decide)
  | minus => exact .single (c := '-') (by decide)
  | asterisk => exact .single (c := '*') (by decide)
  | slash => exact .single (c := '/') (by decide)

/- The text of a formula is scanned as its tokens. -/
theorem Formula.WrittenAs.spelling
    {formula : Formula}
    {text : List Char}
    (hText : formula.WrittenAs text) :
    Scan.Spelling formula.tokens text := by
  induction hText with
  | @last operand text blanks hText hBlanks =>
      refine hText.spelling.append ?_ (.nil hBlanks)
      intro token hLast
      apply Token.endsBefore_of_isSpace
      intro c hHead
      exact hBlanks c (List.mem_of_mem_head? hHead)
  | @cons operand next operator rest text before later blank
      hText hSome hBefore hBehind hLater ih =>
      have hBlank :
          ∀ c ∈ [blank], isSpace c = true := by
        intro c hMem
        rw [List.mem_singleton.mp hMem]
        exact hBehind
      have hOperator :
          Scan.Spelling
            (operator.token :: (Formula.tokens ⟨next, rest⟩))
            (before
              ++ (operator.token.literal.toList
                ++ (blank :: later))) := by
        refine
          .cons hBefore operator.isLexical_token ?_
            (ih.of_blanks hBlank)
        apply Token.endsBefore_of_isSpace
        rintro c ⟨⟩
        exact hBehind
      refine hText.spelling.append ?_ hOperator
      intro token hLast
      apply Token.endsBefore_of_isSpace
      rcases before with _ | ⟨first, before⟩
      · exact (hSome rfl).elim
      · rintro c ⟨⟩
        exact hBefore first (List.mem_cons_self ..)

------------------------------------------------------------
-- Parsing a Formula
------------------------------------------------------------

namespace Parse

/-
  A formula, however it is written, is parsed without an
  error to one bare expression. Its tree is what the
  shunting yard puts out for the trees of the operands, and
  its text is what the yard puts out for their texts.
-/
theorem source_formula
    (formula : Formula)
    (text : String)
    (hText : formula.WrittenAs text.toList) :
    ∃ expr,
      (source text).program =
          .ok [.exprStmt expr.first expr] ∧
        (source text).final.log = #[] ∧
        formula.trees = [expr] ∧
        formula.texts =
          [(Stmt.exprStmt expr.first expr).render] := by
  rcases formula.exists_tree with
    ⟨expr, hTrees, hCanonical, hYield⟩
  have hTokens :
      Scan.tokens text.toList = expr.yield := by
    rw [hYield]
    exact Scan.tokens_of_spelling hText.spelling
  have hStmt :
      (Stmt.exprStmt expr.first expr).IsCanonical :=
    ⟨rfl, hCanonical⟩
  have hSign : Token.assignSign.kind = .assign := rfl
  have hReading :
      ∃ passed,
        Reading (Scan.tokens text.toList)
          [.exprStmt expr.first expr] passed := by
    rw [hTokens]
    exact ⟨[[]], .last hStmt hSign⟩
  rcases source_clean_iff.mpr hReading with
    ⟨hProgram, hLog⟩
  refine ⟨expr, hProgram, hLog, hTrees, ?_⟩
  rw [formula.texts_eq, hTrees]
  rfl

/- A sign, and operators of two levels. -/
theorem source_formula_sign :
    ∃ expr,
      (source "!true == false < true").program =
          .ok [.exprStmt expr.first expr] ∧
        (source "!true == false < true").final.log = #[] ∧
        (Stmt.exprStmt expr.first expr).render =
          "((!true) == (false < true))" := by
  have hNone : ∀ c ∈ [], isSpace c = true := by
    intro c hMem
    cases hMem
  have hSome : [' '] ≠ [] := nofun
  have hBlank : isSpace ' ' = true := by
    decide
  have hBlanks : ∀ c ∈ [' '], isSpace c = true := by
    intro c hMem
    rw [List.mem_singleton.mp hMem]
    exact hBlank
  have hTrue :
      Operand.WrittenAs ⟨[], .truth true⟩ "true".toList :=
    .atom hNone
  have hFalse :
      Operand.WrittenAs ⟨[], .truth false⟩ "false".toList :=
    .atom hNone
  have hSign :
      Operand.WrittenAs ⟨[.bang], .truth true⟩
        "!true".toList :=
    .sign hNone hTrue
  have hLast :
      Formula.WrittenAs ⟨⟨[], .truth true⟩, []⟩
        "true".toList :=
    .last hTrue hNone
  have hLater :
      Formula.WrittenAs
        ⟨⟨[], .truth false⟩,
          [(.lessThan, ⟨[], .truth true⟩)]⟩
        "false < true".toList :=
    .cons hFalse hSome hBlanks hBlank hLast
  have hText :
      Formula.WrittenAs
        ⟨⟨[.bang], .truth true⟩,
          [(.equal, ⟨[], .truth false⟩),
            (.lessThan, ⟨[], .truth true⟩)]⟩
        "!true == false < true".toList :=
    .cons hSign hSome hBlanks hBlank hLater
  rcases source_formula _ _ hText with
    ⟨expr, hProgram, hLog, -, hTexts⟩
  refine ⟨expr, hProgram, hLog, ?_⟩
  refine (List.singleton_inj.mp ?_).symm
  rw [← hTexts]
  decide +kernel

end Parse

end LetLang

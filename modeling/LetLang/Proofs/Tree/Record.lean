import LetLang.Proofs.Scan.Decomposition

/-
  Trees of scanned tokens are known from their records.

  A record names the kind of a node, and its fields hold the
  records of the nodes below. Of a token it keeps the text
  only; but a token that was scanned is known from its text,
  so nothing of such a tree is lost.

  Key definitions include:
    * `Node.IsLexical`

  Main declarations:
    * `Node.record_inj`
    * `Stmt.isLexical_toNode`
    * `Program.record_inj`
-/

namespace LetLang

------------------------------------------------------------
-- Nodes
------------------------------------------------------------

namespace Node

/- Every token of the node has the text it is scanned from. -/
def IsLexical : Node → Prop
  | .bare token => token.IsLexical
  | .ident token => token.IsLexical
  | .int token _ => token.IsLexical
  | .bool token _ => token.IsLexical
  | .prefixOp token right =>
      token.IsLexical ∧ right.IsLexical
  | .infixOp token left right =>
      token.IsLexical ∧ left.IsLexical ∧ right.IsLexical
  | .letStmt token name value =>
      token.IsLexical ∧ name.IsLexical ∧ value.IsLexical
  | .returnStmt token value =>
      token.IsLexical ∧ value.IsLexical
  | .exprStmt token expression =>
      token.IsLexical ∧ expression.IsLexical

/- A record tells the kind, the text and the fields. -/
theorem recordOf_inj
    {kind other : String}
    {a b : Token}
    {fields others : List (String × Json)}
    (h : recordOf kind a fields = recordOf other b others) :
    kind = other ∧ a.literal = b.literal ∧
      fields = others := by
  unfold recordOf at h
  simpa using h

/- Of scanned tokens it tells the token as well. -/
theorem recordOf_inj_of_isLexical
    {kind : String}
    {a b : Token}
    {fields others : List (String × Json)}
    (hA : a.IsLexical)
    (hB : b.IsLexical)
    (h : recordOf kind a fields = recordOf kind b others) :
    a = b ∧ fields = others := by
  rcases recordOf_inj h with ⟨-, hLiteral, hFields⟩
  exact ⟨hA.eq_of_literal_eq hB hLiteral, hFields⟩

/-
  A node of scanned tokens is known from its record. Nodes
  of different kinds have records of different kinds; in the
  other cases the fields hold the records of the parts.
-/
theorem record_inj
    {a b : Node}
    (hA : a.IsLexical)
    (hB : b.IsLexical)
    (h : a.record = b.record) :
    a = b := by
  induction a generalizing b with
  | bare token =>
      cases b with
      | bare token' =>
          rcases recordOf_inj_of_isLexical hA hB h with
            ⟨rfl, -⟩
          rfl
      | _ => exact absurd (recordOf_inj h).1 (by decide)
  | ident token =>
      cases b with
      | ident token' =>
          rcases recordOf_inj_of_isLexical hA hB h with
            ⟨rfl, -⟩
          rfl
      | _ => exact absurd (recordOf_inj h).1 (by decide)
  | int token value =>
      cases b with
      | int token' value' =>
          rcases recordOf_inj_of_isLexical hA hB h with
            ⟨rfl, hFields⟩
          cases hFields
          rfl
      | _ => exact absurd (recordOf_inj h).1 (by decide)
  | bool token value =>
      cases b with
      | bool token' value' =>
          rcases recordOf_inj_of_isLexical hA hB h with
            ⟨rfl, hFields⟩
          cases hFields
          rfl
      | _ => exact absurd (recordOf_inj h).1 (by decide)
  | prefixOp token right ih =>
      cases b with
      | prefixOp token' right' =>
          rcases recordOf_inj_of_isLexical hA.1 hB.1 h with
            ⟨rfl, hFields⟩
          simp only [List.cons.injEq, Prod.mk.injEq,
            true_and, and_true] at hFields
          rw [ih hA.2 hB.2 hFields]
      | _ => exact absurd (recordOf_inj h).1 (by decide)
  | infixOp token left right ihLeft ihRight =>
      cases b with
      | infixOp token' left' right' =>
          rcases recordOf_inj_of_isLexical hA.1 hB.1 h with
            ⟨rfl, hFields⟩
          simp only [List.cons.injEq, Prod.mk.injEq,
            true_and, and_true] at hFields
          rw [ihLeft hA.2.1 hB.2.1 hFields.1,
            ihRight hA.2.2 hB.2.2 hFields.2]
      | _ => exact absurd (recordOf_inj h).1 (by decide)
  | letStmt token name value ihName ihValue =>
      cases b with
      | letStmt token' name' value' =>
          rcases recordOf_inj_of_isLexical hA.1 hB.1 h with
            ⟨rfl, hFields⟩
          simp only [List.cons.injEq, Prod.mk.injEq,
            true_and, and_true] at hFields
          rw [ihName hA.2.1 hB.2.1 hFields.1,
            ihValue hA.2.2 hB.2.2 hFields.2]
      | _ => exact absurd (recordOf_inj h).1 (by decide)
  | returnStmt token value ih =>
      cases b with
      | returnStmt token' value' =>
          rcases recordOf_inj_of_isLexical hA.1 hB.1 h with
            ⟨rfl, hFields⟩
          simp only [List.cons.injEq, Prod.mk.injEq,
            true_and, and_true] at hFields
          rw [ih hA.2 hB.2 hFields]
      | _ => exact absurd (recordOf_inj h).1 (by decide)
  | exprStmt token expression ih =>
      cases b with
      | exprStmt token' expression' =>
          rcases recordOf_inj_of_isLexical hA.1 hB.1 h with
            ⟨rfl, hFields⟩
          simp only [List.cons.injEq, Prod.mk.injEq,
            true_and, and_true] at hFields
          rw [ih hA.2 hB.2 hFields]
      | _ => exact absurd (recordOf_inj h).1 (by decide)

end Node

------------------------------------------------------------
-- Parsed Trees
------------------------------------------------------------

/- An expression has the tokens of its yield. -/
theorem Expr.isLexical_toNode
    {expr : Expr}
    (h : ∀ token ∈ expr.yield, token.IsLexical) :
    expr.toNode.IsLexical := by
  induction expr with
  | ident token => exact h token (List.mem_singleton_self _)
  | int token value =>
      exact h token (List.mem_singleton_self _)
  | bool token value =>
      exact h token (List.mem_singleton_self _)
  | prefixOp token right ih =>
      rcases List.forall_mem_cons.mp h with ⟨hToken, hRight⟩
      exact ⟨hToken, ih hRight⟩
  | infixOp token left right ihLeft ihRight =>
      rcases List.forall_mem_append.mp h with ⟨hLeft, hRest⟩
      rcases List.forall_mem_cons.mp hRest with
        ⟨hToken, hRight⟩
      exact ⟨hToken, ihLeft hLeft, ihRight hRight⟩

/- A canonical statement has the tokens that it stands for. -/
theorem Stmt.isLexical_toNode
    {stmt : Stmt}
    {sign : Token}
    (hCanonical : stmt.IsCanonical)
    (h : ∀ token ∈ stmt.yieldWith sign, token.IsLexical) :
    stmt.toNode.IsLexical := by
  cases stmt with
  | letStmt token name value =>
      rcases List.forall_mem_cons.mp h with ⟨hToken, hRest⟩
      rcases List.forall_mem_cons.mp hRest with
        ⟨hName, hRest⟩
      rcases List.forall_mem_cons.mp hRest with ⟨-, hValue⟩
      exact ⟨hToken, hName, Expr.isLexical_toNode hValue⟩
  | returnStmt token value =>
      rcases List.forall_mem_cons.mp h with ⟨hToken, hValue⟩
      exact ⟨hToken, Expr.isLexical_toNode hValue⟩
  | exprStmt token expr =>
      have hToken : token.IsLexical := by
        rw [hCanonical.1]
        exact h expr.first expr.first_mem_yield
      exact ⟨hToken, Expr.isLexical_toNode h⟩

------------------------------------------------------------
-- Programs
------------------------------------------------------------

/- A program of scanned tokens is known from its record. -/
theorem Program.record_inj
    {first second : Program}
    (hFirst : ∀ stmt ∈ first, stmt.toNode.IsLexical)
    (hSecond : ∀ stmt ∈ second, stmt.toNode.IsLexical)
    (h : Program.record first = Program.record second) :
    first = second := by
  have hRecords := Json.arr.inj h
  clear h
  induction first generalizing second with
  | nil =>
      cases second with
      | nil => rfl
      | cons other second => cases hRecords
  | cons stmt first ih =>
      cases second with
      | nil => cases hRecords
      | cons other second =>
          rcases List.cons.inj hRecords with
            ⟨hRecord, hLater⟩
          rcases List.forall_mem_cons.mp hFirst with
            ⟨hStmt, hFirst⟩
          rcases List.forall_mem_cons.mp hSecond with
            ⟨hOther, hSecond⟩
          have hSame : stmt = other :=
            Stmt.toNode_inj
              (Node.record_inj hStmt hOther hRecord)
          rw [hSame, ih hFirst hSecond hLater]

end LetLang

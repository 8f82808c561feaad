import LetLang.Proofs.Parse.Exactness
import LetLang.Proofs.Parse.StatementTrace

/-
  Accepted statements: a statement is parsed exactly where
  its tokens stand and no operator follows.

  An opening reads the tokens of the statement before its
  expression, and the expression reads the others. So what
  is known about expressions carries over to statements.

  Main declarations:
    * `Parse.Opening.reads`
    * `Parse.exists_opening`
    * `Parse.reads_of_statement`
    * `Parse.statement_of_reads`
-/

namespace LetLang

theorem TokenStream.Reads.peek_eq
    {stream after : TokenStream}
    {first second : Token}
    {tokens : List Token}
    (h : stream.Reads (first :: second :: tokens) after) :
    stream.peek = some second := by
  rw [← current_advance]
  exact h.advance.current_eq

namespace Parse

------------------------------------------------------------
-- Expressions in Statements
------------------------------------------------------------

theorem State.eq_of_log
    {state after : State}
    (h : after.log = state.log) :
    after = ⟨after.stream, state.log⟩ := by
  rw [← h]

/- What an expression in a statement has read. -/
theorem State.reads_of_expression
    {state after : State}
    {expr : Expr}
    (h : state.expression .lowest = (.done expr, after)) :
    state.stream.Reads expr.yield after.stream ∧
      expr.IsCanonical ∧
      after.stream.bindsAbove .lowest = false ∧
      after = ⟨after.stream, state.log⟩ := by
  rcases State.expression_eq_done.mp h with
    ⟨hExpression, hLog⟩
  rcases expression_eq_done_iff.mp hExpression with
    ⟨hReads, hCanonical, hStop⟩
  exact
    ⟨hReads, hCanonical.1, hStop, State.eq_of_log hLog⟩

/- Where an expression in a statement can be read. -/
theorem State.expression_of_reads
    {state : State}
    {expr : Expr}
    {middle : TokenStream}
    (hExpr : expr.IsCanonical)
    (hReads : state.stream.Reads expr.yield middle)
    (hStop : middle.bindsAbove .lowest = false) :
    state.expression .lowest =
      (.done expr, ⟨middle, state.log⟩) := by
  apply State.expression_eq_done.mpr
  refine ⟨?_, rfl⟩
  apply expression_eq_done_iff.mpr
  exact ⟨hReads, ⟨hExpr, expr.rootAbove_lowest⟩, hStop⟩

------------------------------------------------------------
-- Openings
------------------------------------------------------------

/-
  An opening reads the tokens of the statement before its
  expression.
-/
theorem Opening.reads
    {state start : State}
    {form : StatementForm}
    {make : Expr → Stmt}
    (hOpening : Opening state form make start) :
    ∃ sign tokens,
      sign.kind = .assign ∧
        state.stream.Reads tokens start.stream ∧
        ∀ expr,
          (make expr).yieldWith sign =
              tokens ++ expr.yield ∧
            (expr.IsCanonical →
              (make expr).IsCanonical) := by
  cases hOpening with
  | @binding opening name hOpening hLet hPeek hName hSign =>
      rcases TokenStream.exists_current_of_currentIs hSign
        with ⟨sign, hCurrent, hAssign⟩
      have hSecond :
          state.stream.advance.current = some name := by
        rw [TokenStream.current_advance, hPeek]
      have hReadsOpening :=
        TokenStream.reads_of_kind hOpening hLet rfl
      have hReadsName :=
        TokenStream.reads_of_kind hSecond hName rfl
      have hReadsSign :=
        TokenStream.reads_of_kind hCurrent hAssign rfl
      refine
        ⟨sign, [opening, name, sign], hAssign,
          hReadsOpening.cons (hReadsName.cons hReadsSign),
          ?_⟩
      intro expr
      exact ⟨rfl, fun hExpr => ⟨hLet, hName, hExpr⟩⟩
  | @result opening hOpening hReturn =>
      have hReads :=
        TokenStream.reads_of_kind hOpening hReturn rfl
      refine
        ⟨Token.assignSign, [opening], rfl, hReads, ?_⟩
      intro expr
      exact ⟨rfl, fun hExpr => ⟨hReturn, hExpr⟩⟩
  | bare hNotLet hNotReturn =>
      refine
        ⟨Token.assignSign, [], rfl,
          TokenStream.Reads.refl state.stream, ?_⟩
      intro expr
      exact ⟨rfl, fun hExpr => ⟨rfl, hExpr⟩⟩

/- An expression opens no other statement. -/
theorem currentIs_of_inExpression
    {stream : TokenStream}
    {token : Token}
    (hCurrent : stream.current = some token)
    (h : token.kind.inExpression = true) :
    stream.currentIs .letWord = false ∧
      stream.currentIs .returnWord = false := by
  rw [TokenStream.currentIs_of_current hCurrent,
    TokenStream.currentIs_of_current hCurrent]
  cases hKind : token.kind <;>
    rw [hKind] at h <;>
    first | exact ⟨rfl, rfl⟩ | cases h

/- The tokens of a canonical statement open it. -/
theorem exists_opening
    {state : State}
    {stmt : Stmt}
    {sign : Token}
    {middle : TokenStream}
    (hCanonical : stmt.IsCanonical)
    (hSign : sign.kind = .assign)
    (hReads :
      state.stream.Reads (stmt.yieldWith sign) middle) :
    ∃ form make start expr,
      Opening state form make start ∧
        make expr = stmt ∧
        start.stream.Reads expr.yield middle ∧
        expr.IsCanonical := by
  cases stmt with
  | letStmt opening name expr =>
      rcases hCanonical with ⟨hLet, hName, hExpr⟩
      have hThird := hReads.advance.advance
      have hIs :
          state.advance.advance.stream.currentIs .assign =
            true := by
        simp only [State.advance]
        rw [TokenStream.currentIs_of_current
          hThird.current_eq, hSign]
        rfl
      exact
        ⟨.binding, .letStmt opening name, _, expr,
          .binding hReads.current_eq hLet hReads.peek_eq
            hName hIs,
          rfl, hThird.advance, hExpr⟩
  | returnStmt opening expr =>
      rcases hCanonical with ⟨hReturn, hExpr⟩
      exact
        ⟨.result, .returnStmt opening, _, expr,
          .result hReads.current_eq hReturn, rfl,
          hReads.advance, hExpr⟩
  | exprStmt opening expr =>
      rcases hCanonical with ⟨rfl, hExpr⟩
      have hFirst :
          state.stream.current = some expr.first :=
        hReads.current_eq_of_head? expr.head?_yield
      rcases currentIs_of_inExpression hFirst
          (hExpr.inExpression expr.first_mem_yield) with
        ⟨hNotLet, hNotReturn⟩
      exact
        ⟨.expression, _, state, expr,
          .bare hNotLet hNotReturn, rfl, hReads, hExpr⟩

------------------------------------------------------------
-- Statements
------------------------------------------------------------

/-
  A statement that is done is canonical, and its tokens have
  been read.
-/
theorem reads_of_statement
    {state after : State}
    {stmt : Stmt}
    (h : statement state = (.done stmt, after)) :
    stmt.IsCanonical ∧
      ∃ sign middle,
        sign.kind = .assign ∧
          state.stream.Reads (stmt.yieldWith sign) middle ∧
          middle.bindsAbove .lowest = false ∧
          after = stmt.leave ⟨middle, state.log⟩ := by
  cases statementTrace_iff.mpr h with
  | @done start middle form make expr hOpening
      hExpression =>
      rcases hOpening.reads with
        ⟨sign, tokens, hSign, hReads, hMake⟩
      rcases hMake expr with ⟨hYield, hCanonical⟩
      rcases State.reads_of_expression hExpression with
        ⟨hValue, hExpr, hStop, hMiddle⟩
      rw [hOpening.log_eq] at hMiddle
      refine
        ⟨hCanonical hExpr, sign, middle.stream, hSign, ?_,
          hStop, ?_⟩
      · rw [hYield]
        exact hReads.trans hValue
      · rw [← hMiddle]

/- Tokens of a canonical statement are parsed as it. -/
theorem statement_of_reads
    {state : State}
    {stmt : Stmt}
    {sign : Token}
    {middle : TokenStream}
    (hCanonical : stmt.IsCanonical)
    (hSign : sign.kind = .assign)
    (hReads :
      state.stream.Reads (stmt.yieldWith sign) middle)
    (hStop : middle.bindsAbove .lowest = false) :
    statement state =
      (.done stmt, stmt.leave ⟨middle, state.log⟩) := by
  rcases exists_opening hCanonical hSign hReads with
    ⟨form, make, start, expr, hOpening, rfl, hValue,
      hExpr⟩
  have hExpression :=
    State.expression_of_reads hExpr hValue hStop
  rw [hOpening.log_eq] at hExpression
  exact (StatementTrace.done hOpening hExpression).statement_eq

end Parse

end LetLang

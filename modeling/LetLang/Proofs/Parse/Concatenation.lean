import LetLang.Proofs.Parse.Reading
import LetLang.Proofs.Parse.Sources
import LetLang.Proofs.Scan.Concatenation

/-
  Concatenations: parsing one text behind another.

  A text whose last token is a semicolon splits cleanly from
  any text behind it, for a semicolon takes nothing of what
  follows. If the first text is parsed without an error, the
  parse comes to an end right behind its semicolon. It would
  go on only to pass another semicolon. So it is where the
  parse of the second text starts.

  Main declarations:
    * `Parse.Reading.program_eq`
    * `Parse.source_append`
-/

------------------------------------------------------------
-- Behind a Reading
------------------------------------------------------------

namespace LetLang

namespace Stmt

/- No statement ends with a semicolon. -/
theorem IsCanonical.kind_last_ne
    {stmt : Stmt}
    {sign : Token}
    (hCanonical : stmt.IsCanonical)
    (hSign : sign.kind = .assign)
    {rest : List Token}
    (hLast :
      ∀ token ∈ (stmt.yieldWith sign ++ rest).getLast?,
        token.kind = .semicolon) :
    rest ≠ [] := by
  rintro rfl
  rw [List.append_nil] at hLast
  have hMem :=
    List.getLast_mem (stmt.yieldWith_ne_nil sign)
  have hMark := hCanonical.isMark_eq_false hSign hMem
  have hKind :=
    hLast _
      (List.getLast?_eq_some_getLast
        (stmt.yieldWith_ne_nil sign))
  rw [Token.Kind.isMark, hKind] at hMark
  cases hMark

/-
  The tokens that are passed behind a statement are among
  the given ones, unless there are none or a semicolon comes
  after them.
-/
theorem reads_leave_advance
    (stmt : Stmt)
    (state : Parse.State)
    {rest : List Token}
    {place : TokenStream}
    (hReads : state.stream.Reads rest place)
    (hRest : rest ≠ [])
    (hPlace : place.currentIs .semicolon = false) :
    (stmt.leave state).advance.stream.Reads
      (rest.drop (stmt.skips rest)) place := by
  rcases rest with _ | ⟨first, rest⟩
  · exact (hRest rfl).elim
  have hLater : state.advance.stream.Reads rest place :=
    hReads.advance
  cases stmt with
  | letStmt token name value => exact hLater
  | returnStmt token value => exact hLater
  | exprStmt token expr =>
      have hPeek :
          state.stream.peekIs .semicolon =
            rest[0]?.any (·.kind == .semicolon) := by
        unfold TokenStream.peekIs
        rw [← TokenStream.current_advance]
        cases rest with
        | nil =>
            have hNext : place = state.stream.advance :=
              hLater.eq_of_reads (TokenStream.Reads.refl _)
            rw [← hNext]
            exact hPlace
        | cons next rest =>
            rw [hReads.advance.current_eq]
            rfl
      simp only [leave, Parse.passBeforeSemicolon, skips,
        hPeek, List.getElem?_cons_succ]
      cases rest with
      | nil => exact hLater
      | cons next rest =>
          split
          · exact hLater.advance
          · exact hLater

end Stmt

namespace Parse

/-
  A reading that ends with a semicolon is parsed to its
  program, and the parse goes on right behind it, if no
  other semicolon follows. The induction is on the reading;
  what is left of it after a statement is empty or ends with
  the same semicolon.
-/
theorem Reading.program_eq
    {tokens : List Token}
    {stmts : Program}
    {passed : List (List Token)}
    (hReading : Reading tokens stmts passed)
    {state : State}
    {place : TokenStream}
    (hReads : state.stream.Reads tokens place)
    (hLast :
      ∀ token ∈ tokens.getLast?, token.kind = .semicolon)
    (hPlace : place.currentIs .semicolon = false) :
    program state =
      ((program ⟨place, state.log⟩).1.map (stmts ++ ·),
        (program ⟨place, state.log⟩).2) := by
  induction hReading generalizing state with
  | nil =>
      have hStream : place = state.stream :=
        hReads.eq_of_reads (TokenStream.Reads.refl _)
      rw [hStream]
      rcases program state with ⟨fault | later, final⟩
      · rfl
      · rfl
  | @cons stmt sign rest stmts passed hCanonical hSign hStop
      hLater ih =>
      have hRest : rest ≠ [] :=
        hCanonical.kind_last_ne hSign hLast
      rcases hReads.exists_middle with
        ⟨middle, hOwn, hReadsRest⟩
      have hMiddle : middle.bindsAbove .lowest = false := by
        rcases rest with _ | ⟨first, rest⟩
        · exact (hRest rfl).elim
        · rw [TokenStream.bindsAbove_of_current
            hReadsRest.current_eq]
          simp [Token.Kind.bindsAbove, hStop first rfl]
      have hAttempt :=
        statement_of_reads hCanonical hSign hOwn hMiddle
      have hNext :=
        stmt.reads_leave_advance ⟨middle, state.log⟩
          hReadsRest hRest hPlace
      have hLastNext :
          ∀ token ∈
            (rest.drop (stmt.skips rest)).getLast?,
              token.kind = .semicolon := by
        intro token hMem
        apply hLast token
        rw [List.getLast?_append]
        rw [List.getLast?_drop] at hMem
        split at hMem
        · cases hMem
        · rw [hMem]
          rfl
      have hProgram := ih hNext hLastNext
      have hLog :
          (stmt.leave ⟨middle, state.log⟩).advance.log =
            state.log :=
        stmt.log_leave _
      rw [hLog] at hProgram
      rw [program_of_done
          (isFinished_of_reads hCanonical hSign hOwn)
          hAttempt,
        hProgram]
      rcases program ⟨place, state.log⟩ with
        ⟨fault | later, final⟩
      · rfl
      · rfl

------------------------------------------------------------
-- Sources
------------------------------------------------------------

/-
  If the last token of a text is a semicolon, the text is
  read up to the tokens of what stands behind it.
-/
theorem reads_ofSource_append
    {text rest : String}
    (hLast :
      ∀ token ∈ (Scan.tokens text.toList).getLast?,
        token.kind = .semicolon) :
    (TokenStream.ofSource (text ++ rest)).Reads
      (Scan.tokens text.toList)
      ⟨(Scan.tokens rest.toList).map some, true,
        (Scan.tokens text.toList).length⟩ := by
  refine ⟨?_, rfl, (Nat.zero_add _).symm⟩
  unfold TokenStream.ofSource TokenStream.ofCursor
    Scan.Cursor.ofSource
  dsimp only
  rw [String.toList_append, Scan.tokens_append hLast,
    List.map_append]

/-
  How many places have been passed does not matter to what a
  text comes to.
-/
theorem outcome_at
    (text : String)
    (position : Nat) :
    (run
        ⟨(Scan.tokens text.toList).map some, true,
          position⟩).outcome =
      (source text).outcome := by
  have hReads :
      TokenStream.Reads
        ⟨(Scan.tokens text.toList).map some, true, position⟩
        (Scan.tokens text.toList)
        ⟨[], true,
          position + (Scan.tokens text.toList).length⟩ :=
    ⟨(List.append_nil _).symm, rfl, rfl⟩
  have hPlace :=
    run_of_reads
      (fun _ hMem => Token.kind_ne_eof_of_mem_tokens hMem)
      hReads (TokenStream.isEnd_endless _) rfl
  exact
    hPlace.trans
      (run_ofCursor (Scan.Cursor.ofSource text)).symm

/-
  Programs compose. If a text is parsed without an error and
  its last token is a semicolon, and the first token of
  another text is none, then the concatenation has the
  statements of both in order, and the errors and the fault
  of the second text.
-/
theorem source_append
    (text rest : String)
    (stmts : Program)
    (hProgram : (source text).program = .ok stmts)
    (hLog : (source text).final.log = #[])
    (hLast :
      ∃ token,
        (Scan.tokens text.toList).getLast? = some token ∧
          token.kind = .semicolon)
    (hHead :
      ∀ token ∈ (Scan.tokens rest.toList).head?,
        token.kind ≠ .semicolon) :
    (source (text ++ rest)).program =
        (source rest).program.map (stmts ++ ·) ∧
      (source (text ++ rest)).final.log =
        (source rest).final.log := by
  rcases source_clean_iff.mp ⟨hProgram, hLog⟩ with
    ⟨passed, hReading⟩
  have hSemicolon :
      ∀ token ∈ (Scan.tokens text.toList).getLast?,
        token.kind = .semicolon := by
    rcases hLast with ⟨last, hSome, hKind⟩
    intro token hMem
    rw [hSome] at hMem
    cases hMem
    exact hKind
  -- The stream behind the first text, as the parse of the
  -- concatenation comes to it.
  let place : TokenStream :=
    ⟨(Scan.tokens rest.toList).map some, true,
      (Scan.tokens text.toList).length⟩
  have hReads :
      (State.ofStream
        (TokenStream.ofSource (text ++ rest))).stream.Reads
          (Scan.tokens text.toList) place :=
    reads_ofSource_append hSemicolon
  have hPlace : place.currentIs .semicolon = false := by
    unfold TokenStream.currentIs TokenStream.current place
    cases hTokens : Scan.tokens rest.toList with
    | nil => rfl
    | cons first later =>
        rw [hTokens] at hHead
        simpa using hHead first rfl
  have hRun :=
    hReading.program_eq hReads hSemicolon hPlace
  have hOutcome :
      (run place).outcome = (source rest).outcome :=
    outcome_at rest _
  unfold Run.outcome at hOutcome
  rcases Prod.mk.inj hOutcome with ⟨hSame, hSameLog⟩
  rw [← hSame, ← hSameLog]
  exact
    ⟨congrArg Prod.fst hRun,
      congrArg (fun result => result.2.log) hRun⟩

/-
  In front of an operator without an operand: a statement
  and a name that is passed behind it, up to a semicolon.
-/
theorem source_append_name :
    (source ("1 x;" ++ "2; -")).program =
        (source "2; -").program.map
          ([.exprStmt ⟨.int, "1"⟩
            (.int ⟨.int, "1"⟩ 1)] ++ ·) ∧
      (source ("1 x;" ++ "2; -")).final.log =
        (source "2; -").final.log := by
  apply source_append
  · exact eq_ok_of_toOption (by decide +kernel)
  · decide +kernel
  · exact ⟨Token.semicolon, by decide +kernel, rfl⟩
  · decide +kernel

end Parse

end LetLang

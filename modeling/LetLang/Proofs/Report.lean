import LetLang.Proofs.Parse.Blocks
import LetLang.Proofs.Views
import LetLang.Shell

/-
  Reports on a text: what is written of it in each view.

  The views are defined by what they write as a whole. Here
  they are written step by step, line by line, and what has
  been written stays when a fault comes. Both come to the
  same; so a fault comes before anything is written, also if
  errors have been recorded by then.

  No statement of a parsed text is rendered with a line
  feed, and no error that a parse records has one in its
  message. So what is written splits into lines again.

  Key definitions include:
    * `Writing`
    * `Inspect.steps`
    * `Request.Serves`

  Main declarations:
    * `Inspect.steps_eq`
    * `Node.IsLexical.not_mem_render`
    * `Parse.Blocks.not_mem_message`
    * `Request.serves`
    * `Request.serves_views`
-/

namespace LetLang

------------------------------------------------------------
-- Writing Step by Step
------------------------------------------------------------

namespace Output

theorem append_empty
    (output : Output) :
    output ++ empty = output := by
  apply Output.ext
  · exact String.append_empty
  · exact String.append_empty

theorem append_assoc
    (a b c : Output) :
    a ++ b ++ c = a ++ (b ++ c) := by
  apply Output.ext
  · exact String.append_assoc
  · exact String.append_assoc

end Output

/-
  Steps that write, and may end with a fault. What has been
  written before the fault is kept.
-/
abbrev Writing :=
  EStateM Fault Output

namespace Writing

/- Write one piece. -/
def write
    (piece : Output) : Writing PUnit :=
  modify (· ++ piece)

/-
  What steps that give a result leave behind, if they come
  to a whole output or to a fault.
-/
def leave {α : Type}
    (written : Output) :
    Except Fault (Output × α) →
      EStateM.Result Fault Output α
  | .ok (output, result) => .ok result (written ++ output)
  | .error fault => .error fault written

/-
  Pieces that are written one after the other are written as
  a whole, if the whole consists of these pieces.
-/
theorem forM_write {α : Type}
    {piece : α → Output}
    (whole : List α → Output)
    (hNil : whole [] = Output.empty)
    (hCons :
      ∀ item items,
        whole (item :: items) = piece item ++ whole items)
    (items : List α)
    (written : Output) :
    forM (m := Writing) items
        (fun item => write (piece item)) written =
      .ok ⟨⟩ (written ++ whole items) := by
  induction items generalizing written with
  | nil =>
      rw [hNil, Output.append_empty]
      rfl
  | cons item items ih =>
      rw [hCons, ← Output.append_assoc]
      exact ih (written ++ piece item)

end Writing

namespace Inspect

open Writing

/-
  Parse a text, then write what is shown of its program, and
  then its errors one after the other.
-/
def parsedSteps
    (present : Program → Writing PUnit)
    (text : String) : Writing Nat := do
  let run := Parse.source text
  match run.program with
  | .error fault => throw fault
  | .ok program =>
      present program
      forM run.final.log.toList (fun diagnostic =>
        write (.complaint
          ("[error] >>> " ++ diagnostic.error.message
            ++ "\n")))
      return statusOf run.final.log

/- Show a text step by step. -/
def steps : View → String → Writing Nat
  | .tokens, text => do
      forM (Scan.tokens text.toList) (fun token =>
        write (.line token.display))
      return 0
  | .statements, text =>
      parsedSteps (fun program =>
        forM program (fun stmt =>
          write (.line stmt.render))) text
  | .trees, text =>
      parsedSteps (fun program =>
        write (.line program.record.pretty)) text

theorem forM_line {α : Type}
    (line : α → String)
    (items : List α)
    (written : Output) :
    forM (m := Writing) items
        (fun item => write (.line (line item))) written =
      .ok ⟨⟩ (written ++ Output.lines (items.map line)) := by
  apply
    forM_write (fun items => Output.lines (items.map line))
  · rfl
  · intro item items
    apply Output.ext
    · simp [Output.lines, Output.line, Output.text]
    · rfl

theorem forM_complaint
    (log : Log)
    (written : Output) :
    forM (m := Writing) log.toList
        (fun diagnostic =>
          write (.complaint
            ("[error] >>> " ++ diagnostic.error.message
              ++ "\n"))) written =
      .ok ⟨⟩ (written ++ complainOf log) := by
  unfold complainOf
  apply
    forM_write (fun errors : List Diagnostic =>
      complain (errors.map (·.error.message)))
  · rfl
  · intro item items
    apply Output.ext
    · rfl
    · simp [complain, Output.complaint]

/-
  What is shown step by step of a text that is parsed is
  what is shown of it as a whole.
-/
theorem parsedSteps_eq
    {steps : Program → Writing PUnit}
    {present : Program → Output}
    (hPresent :
      ∀ program written,
        steps program written =
          .ok ⟨⟩ (written ++ present program))
    (text : String)
    (written : Output) :
    parsedSteps steps text written =
      leave written
        ((program present text).map
          (fun shown =>
            (shown.output, statusOf shown.log))) := by
  unfold parsedSteps program
  dsimp only
  cases (Parse.source text).program with
  | error fault => rfl
  | ok program =>
      simp only [bind, EStateM.bind, hPresent,
        forM_complaint, Output.append_assoc]
      rfl

/- What is shown step by step is what the view shows. -/
theorem steps_eq
    (view : View)
    (text : String)
    (written : Output) :
    steps view text written =
      leave written (Inspect.view view text) := by
  cases view with
  | tokens =>
      simp only [steps, bind, EStateM.bind, forM_line]
      rfl
  | statements =>
      have hPresent
          (program : Program)
          (written : Output) :=
        forM_line Stmt.render program written
      exact parsedSteps_eq hPresent text written
  | trees =>
      have hPresent
          (program : Program)
          (written : Output) :
          write (.line program.record.pretty) written =
            .ok ⟨⟩ (written ++ trees program) :=
        rfl
      exact parsedSteps_eq hPresent text written

end Inspect

------------------------------------------------------------
-- Texts without Line Feeds
------------------------------------------------------------

theorem Token.IsLexical.not_mem_literal
    {token : Token}
    (hLexical : token.IsLexical) :
    '\n' ∉ token.literal.toList := by
  intro hMem
  have hSpace := hLexical.isSpace_eq_false hMem
  cases hSpace

/-
  A node of scanned tokens is rendered without a line feed.
  The induction is on the node: what is put around its parts
  has none.
-/
theorem Node.IsLexical.not_mem_render
    {node : Node}
    (hLexical : node.IsLexical) :
    '\n' ∉ node.render.toList := by
  induction node with
  | bare token =>
      have hNone : '\n' ∉ "Node()".toList := by decide
      exact hNone
  | ident token => exact hLexical.not_mem_literal
  | int token value =>
      intro hMem
      have hDigit := Json.isDigit_of_mem_repr hMem
      cases hDigit
  | bool token value => cases value <;> simp [render]
  | prefixOp token right ih =>
      have hLiteral := hLexical.1.not_mem_literal
      simp [render, hLiteral, ih hLexical.2]
  | infixOp token left right ihLeft ihRight =>
      have hLiteral := hLexical.1.not_mem_literal
      simp [render, hLiteral, ihLeft hLexical.2.1,
        ihRight hLexical.2.2]
  | letStmt token name value ihName ihValue =>
      have hLiteral := hLexical.1.not_mem_literal
      simp [render, hLiteral, ihName hLexical.2.1,
        ihValue hLexical.2.2]
  | returnStmt token value ih =>
      have hLiteral := hLexical.1.not_mem_literal
      simp [render, hLiteral, ih hLexical.2]
  | exprStmt token expression ih => exact ih hLexical.2

/- Errors other than remarks have messages of one line. -/
theorem ParseError.not_mem_message
    {error : ParseError}
    (hRemark : ∀ texts, error ≠ .remark texts) :
    '\n' ∉ error.message.toList := by
  cases error with
  | missingToken => decide +kernel
  | unexpectedToken expected found =>
      have hExpected := expected.not_mem_display.2
      have hFound :
          '\n' ∉ ((found.map (·.kind.display)).getD
            "None").toList := by
        cases found with
        | none =>
            have hNone : '\n' ∉ "None".toList := by decide
            exact hNone
        | some token => exact token.kind.not_mem_display.2
      unfold message
      simp only [String.toList_append, List.mem_append,
        not_or]
      exact
        ⟨⟨⟨⟨by decide, hExpected⟩, by decide⟩, hFound⟩,
          by decide⟩
  | noOperand token =>
      have hKind := token.kind.not_mem_display.2
      unfold message
      simp only [String.toList_append, List.mem_append,
        not_or]
      exact ⟨⟨by decide, hKind⟩, by decide⟩
  | statementFailed form => cases form <;> decide +kernel
  | operandFailed form => cases form <;> decide +kernel
  | remark texts => exact absurd rfl (hRemark texts)

namespace Parse

/- There are no remarks in a block. -/
theorem Block.ne_remark
    {place : Nat}
    {stream : TokenStream}
    {block : List Diagnostic}
    (hBlock : Block place stream block) :
    ∀ error ∈ block.map Diagnostic.error, ∀ texts,
      error ≠ .remark texts := by
  cases hBlock with
  | unnamed hForm => simp [Diagnostic.root]
  | unsigned hForm => simp [Diagnostic.root]
  | @chain obstacle unaries binaries hBinaries =>
      rw [Diagnostic.map_error_chain]
      have hObstacle
          (texts : List String) :
          obstacle.error ≠ .remark texts := by
        cases obstacle with
        | missing => simp [Obstacle.error]
        | unusable token => simp [Obstacle.error]
      intro error hMem texts
      simp only [List.mem_cons, List.mem_append,
        List.mem_replicate, List.not_mem_nil, or_false]
        at hMem
      rcases hMem with rfl | (⟨-, rfl⟩ | ⟨-, rfl⟩) | rfl
      · exact hObstacle texts
      · simp
      · simp
      · simp

/- Nor are there any among the blocks of rounds. -/
theorem Blocks.ne_remark
    {place : Nat}
    {rounds : List Round}
    {errors : List Diagnostic}
    (hBlocks : Blocks place rounds errors) :
    ∀ error ∈ errors.map Diagnostic.error, ∀ texts,
      error ≠ .remark texts := by
  induction hBlocks with
  | nil => simp
  | done hDone hLog hLater ih => exact ih
  | failed hFailed hBlock hLog hLater ih =>
      rw [List.map_append, List.forall_mem_append]
      exact ⟨hBlock.ne_remark, ih⟩

/- So every message of a block is of one line. -/
theorem Blocks.not_mem_message
    {place : Nat}
    {rounds : List Round}
    {errors : List Diagnostic}
    (hBlocks : Blocks place rounds errors) :
    ∀ diagnostic ∈ errors,
      '\n' ∉ diagnostic.error.message.toList := by
  intro diagnostic hMem
  apply ParseError.not_mem_message
  exact hBlocks.ne_remark _ (List.mem_map_of_mem hMem)

/- Rounds without errors are those that give statements. -/
theorem Blocks.eq_nil_iff
    {place : Nat}
    {rounds : List Round}
    {errors : List Diagnostic}
    (hBlocks : Blocks place rounds errors) :
    errors = [] ↔
      ∀ round ∈ rounds, round.stmt?.isSome = true := by
  induction hBlocks with
  | nil => simp
  | @done place round rounds errors hDone hLog hLater ih =>
      rw [ih, List.forall_mem_cons]
      simp [hDone]
  | @failed place round rounds block errors hFailed hBlock
      hLog hLater ih =>
      have hSome : block ≠ [] := by
        rintro rfl
        have hOne := hBlock.failedStatements_eq
        cases hOne
      rw [List.forall_mem_cons]
      simp [hSome, hFailed]

end Parse

------------------------------------------------------------
-- Views of One Text
------------------------------------------------------------

namespace Inspect

/- The errors of a log are written to the other text. -/
theorem append_complainOf
    (output : Output)
    (hOutput : output.err = "")
    (log : Log) :
    output ++ complainOf log =
      ⟨output.out, (complainOf log).err⟩ := by
  apply Output.ext
  · exact String.append_empty
  · rw [Output.err_append, hOutput]
    exact String.empty_append

/- The errors of a parse are written one a line. -/
theorem splitOn_complainOf
    {rounds : List Parse.Round}
    {log : Log}
    (hBlocks : Parse.Blocks 0 rounds log.toList) :
    (complainOf log).err.toList.splitOn '\n' =
      log.toList.map (fun diagnostic =>
          ("[error] >>> "
            ++ diagnostic.error.message).toList)
        ++ [[]] := by
  have hLines :
      ∀ line ∈
        log.toList.map (fun diagnostic =>
          "[error] >>> " ++ diagnostic.error.message),
        '\n' ∉ line.toList := by
    intro line hMem
    rcases List.mem_map.mp hMem with
      ⟨diagnostic, hFound, rfl⟩
    simp [hBlocks.not_mem_message diagnostic hFound]
  have hSplit := Text.splitOn_join_lines hLines
  rw [List.map_map, List.map_map] at hSplit
  unfold complainOf complain
  rw [List.map_map]
  exact hSplit

/- So are the statements of a text that is parsed. -/
theorem splitOn_statements
    {text : String}
    {program : Program}
    (hProgram : (Parse.source text).program = .ok program) :
    (statements program).out.toList.splitOn '\n' =
      program.map (fun stmt => stmt.render.toList)
        ++ [[]] := by
  have hLines :
      ∀ line ∈ program.map Stmt.render,
        '\n' ∉ line.toList := by
    intro line hMem
    rcases List.mem_map.mp hMem with ⟨stmt, hStmt, rfl⟩
    have hLexical :=
      Parse.isLexical_of_source hProgram stmt hStmt
    exact hLexical.not_mem_render
  have hTexts :
      (program.map Stmt.render).map String.toList =
        program.map (fun stmt => stmt.render.toList) :=
    List.map_map
  have hSplit := Text.splitOn_join_lines hLines
  rw [hTexts] at hSplit
  exact hSplit

/-
  The status of a log that consists of the blocks of rounds
  tells whether one of them has failed.
-/
theorem statusOf_eq
    {rounds : List Parse.Round}
    {log : Log}
    (hBlocks : Parse.Blocks 0 rounds log.toList) :
    statusOf log =
      if ∃ round ∈ rounds, round.stmt? = none then
        1
      else
        0 := by
  have hEmpty : log.isEmpty = true ↔ log.toList = [] := by
    rw [Array.isEmpty_iff, Array.toList_eq_nil_iff]
  unfold statusOf
  by_cases hFailed : ∃ round ∈ rounds, round.stmt? = none
  · rw [if_pos hFailed, if_neg]
    rw [hEmpty, hBlocks.eq_nil_iff]
    intro hAll
    rcases hFailed with ⟨round, hMem, hNone⟩
    have hSome := hAll round hMem
    rw [hNone] at hSome
    cases hSome
  · rw [if_neg hFailed, if_pos]
    rw [hEmpty, hBlocks.eq_nil_iff]
    intro round hMem
    rw [Option.isSome_iff_ne_none]
    intro hNone
    exact hFailed ⟨round, hMem, hNone⟩

end Inspect

namespace Request

/-
  A text is served in a view with a result. If this is an
  output and a status, they are given and the output is
  written; if it is a fault, it is raised and nothing is
  written.
-/
structure Serves
    (text : String)
    (view : View)
    (result : Except Fault (Output × Nat)) : Prop where
  serve_eq :
    ∀ files,
      serve ⟨text, true, view⟩ files =
        result.mapError Trouble.ofFault
  steps_eq :
    ∀ written,
      Inspect.steps view text written =
        Writing.leave written result

/- Every text is served in every view. -/
theorem serves
    (text : String)
    (view : View) :
    Serves text view (Inspect.view view text) :=
  ⟨fun _ => rfl, Inspect.steps_eq view text⟩

/-
  The views of one text agree. Its tokens are always listed,
  without a complaint. Its statements and its trees are
  either both refused for one fault, and nothing is written,
  whatever has been recorded by then; or both are shown,
  with the same errors, one a line and in order, and the
  same status, which is one if an attempt at a statement has
  failed. In this case the statements are shown one a line
  and in order, and the shell answers the text in the same
  way.
-/
theorem serves_views
    (text : String) :
    (∃ listing,
      Serves text .tokens (.ok (.text listing, 0))) ∧
      ((∃ fault,
        (Parse.source text).program = .error fault ∧
          Serves text .statements (.error fault) ∧
          Serves text .trees (.error fault)) ∨
        ∃ program rounds out trees err status,
          (Parse.source text).program = .ok program ∧
            Parse.Rounds
              (.ofStream (.ofSource text)) rounds
              (Parse.source text).final ∧
            program =
              rounds.filterMap Parse.Round.stmt? ∧
            Serves text .statements
              (.ok (⟨out, err⟩, status)) ∧
            Serves text .trees
              (.ok (⟨trees, err⟩, status)) ∧
            err.toList.splitOn '\n' =
              (Parse.source text).final.log.toList.map
                (fun diagnostic =>
                  ("[error] >>> "
                    ++ diagnostic.error.message).toList)
                ++ [[]] ∧
            status =
              (if ∃ round ∈ rounds, round.stmt? = none then
                1
              else
                0) ∧
            out.toList.splitOn '\n' =
              program.map (fun stmt => stmt.render.toList)
                ++ [[]] ∧
            ∀ frames,
              Shell.answer frames .statements text =
                .ok ⟨out, err⟩) := by
  refine ⟨⟨_, serves text .tokens⟩, ?_⟩
  have hStatements := serves text .statements
  have hTrees := serves text .trees
  dsimp only [Inspect.view] at hStatements hTrees
  cases hProgram : (Parse.source text).program with
  | error fault =>
      rw [Inspect.program_of_fault hProgram] at hStatements
      rw [Inspect.program_of_fault hProgram] at hTrees
      exact Or.inl ⟨fault, rfl, hStatements, hTrees⟩
  | ok program =>
      rw [Inspect.program_of_ok hProgram] at hStatements
      rw [Inspect.program_of_ok hProgram] at hTrees
      rcases Parse.exists_rounds_of_run hProgram with
        ⟨rounds, hRounds, hKept⟩
      rcases hRounds.exists_blocks with
        ⟨errors, hBlocks, hErrors⟩
      have hLog :
          (Parse.source text).final.log.toList = errors :=
        hErrors
      rw [← hLog] at hBlocks
      have hAnswer
          (frames : Shell.Frames) :
          Shell.answer frames .statements text =
            .ok
              ⟨(Inspect.statements program).out,
                (Inspect.complainOf
                  (Parse.source text).final.log).err⟩ := by
        unfold Shell.answer
        rw [Inspect.program_of_ok hProgram]
        exact
          congrArg Except.ok
            (Inspect.append_complainOf _ rfl _)
      rw [Inspect.append_complainOf _ rfl]
        at hStatements hTrees
      simp only [Except.map, Inspect.statusOf_eq hBlocks]
        at hStatements hTrees
      exact
        Or.inr
          ⟨program, rounds, _, _, _, _, rfl, hRounds, hKept,
            hStatements, hTrees,
            Inspect.splitOn_complainOf hBlocks, rfl,
            Inspect.splitOn_statements hProgram, hAnswer⟩

end Request

end LetLang

import LetLang.Output
import LetLang.Parse.Program

/-
  Looking at a source text: its tokens, its statements in
  text form, or its syntax trees as JSON.

  The tokens of a text can always be listed. The other two
  views need a parse. If a fault ends it, nothing is
  written; otherwise the statements that parsed are written
  to the standard output and the errors to the error output.

  Key definitions include:
    * `View`
    * `Inspect.listTokens`
    * `Inspect.statements`
    * `Inspect.trees`
    * `Inspect.view`

  Main declarations:
    * `Inspect.program_of_fault`
    * `Inspect.program_of_ok`
-/

namespace LetLang

------------------------------------------------------------
-- Views
------------------------------------------------------------

/- What is shown of a source text. -/
inductive View where
  | tokens
  | statements
  | trees
  deriving DecidableEq, Repr

namespace View

/- Every view. -/
def all : List View :=
  [.tokens, .statements, .trees]

/- The word by which a view is chosen. -/
def name : View → String
  | .tokens => "tokens"
  | .statements => "parse"
  | .trees => "ast"

/- The view chosen by a word. -/
def ofName?
    (word : String) : Option View :=
  all.find? (fun view => view.name == word)

end View

------------------------------------------------------------
-- Showing a Text
------------------------------------------------------------

namespace Inspect

/- The tokens of a text, one a line. -/
def listTokens
    (text : String) : Output :=
  Output.lines
    ((Scan.tokens text.toList).map Token.display)

/- Errors on the error output, one a line. -/
def complain
    (problems : List String) : Output :=
  Output.complaint (String.join
    (problems.map (fun problem =>
      "[error] >>> " ++ problem ++ "\n")))

/- The errors of a log. -/
def complainOf
    (log : Log) : Output :=
  complain (log.toList.map (·.error.message))

/- The texts of a program's statements, one a line. -/
def statements
    (program : Program) : Output :=
  Output.lines (program.map Stmt.render)

/- The records of a program's statements, as one array. -/
def trees
    (program : Program) : Output :=
  Output.line program.record.pretty

/-
  A program that was shown, what was written for it, and its
  errors.
-/
structure Shown where
  program : Program
  output : Output
  log : Log

/- Show the program of a text, and then its errors. -/
def program
    (present : Program → Output)
    (text : String) : Except Fault Shown :=
  let run := Parse.source text
  match run.program with
  | .ok program =>
      .ok ⟨program,
        present program ++ complainOf run.final.log,
        run.final.log⟩
  | .error fault => .error fault

/-
  The status of a program with a given log: one if there are
  errors.
-/
def statusOf
    (log : Log) : Nat :=
  if log.isEmpty then 0 else 1

/-
  Show a text, with a status that tells whether there were
  errors.
-/
def view
    (view : View)
    (text : String) : Except Fault (Output × Nat) :=
  match view with
  | .tokens => .ok (listTokens text, 0)
  | .statements =>
      (program statements text).map
        (fun shown => (shown.output, statusOf shown.log))
  | .trees =>
      (program trees text).map
        (fun shown => (shown.output, statusOf shown.log))

------------------------------------------------------------
-- Laws
------------------------------------------------------------

/- Nothing is shown of a text that ends in a fault. -/
theorem program_of_fault
    {text : String}
    {fault : Fault}
    (hFault : (Parse.source text).program = .error fault)
    (present : Program → Output) :
    program present text = .error fault := by
  unfold Inspect.program
  dsimp only
  rw [hFault]

/- Of any other text the program and the errors are shown. -/
theorem program_of_ok
    {text : String}
    {parsed : Program}
    (hProgram : (Parse.source text).program = .ok parsed)
    (present : Program → Output) :
    program present text =
      .ok
        ⟨parsed,
          present parsed
            ++ complainOf (Parse.source text).final.log,
          (Parse.source text).final.log⟩ := by
  unfold Inspect.program
  dsimp only
  rw [hProgram]

end Inspect

end LetLang

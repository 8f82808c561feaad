import LetLang.CommandLine.Settings
import LetLang.Request
import LetLang.Shell

/-
  The whole program: a command line is read and obeyed.

  Without arguments, without a source, or on demand, the
  shell is started; otherwise the source is shown. A command
  line that is not understood, and a source that cannot be
  shown, are complained about together with the usage. Only
  a token that contradicts its kind is passed on as it is.

  Key definitions include:
    * `CommandLine.Surroundings`
    * `CommandLine.Ending`
    * `CommandLine.Plan`
    * `CommandLine.plan`
    * `CommandLine.run`
-/

namespace LetLang

namespace CommandLine

------------------------------------------------------------
-- Texts
------------------------------------------------------------

/- The choices of a view. -/
def viewChoices : String :=
  "\x7b"
    ++ ",".intercalate (View.all.map View.name) ++ "\x7d"

/- The usage in one line. -/
def usage : String :=
  "usage: pygmaea [-h] [-s] [-m " ++ viewChoices
    ++ "] [--repl] [source]"

/- The text that a request for help is answered with. -/
def helpText : Output :=
  Output.lines
    [usage,
      "",
      "positional arguments:",
      "  source                "
        ++ "Filename or raw source (with -s)",
      "",
      "options:",
      "  -h, --help            "
        ++ "show this help message and exit",
      "  -s, --string          "
        ++ "Interpret source as literal string",
      "  -m " ++ viewChoices ++ ", --mode " ++ viewChoices,
      "                        "
        ++ "What to print: tokens, rendered statements, "
        ++ "or JSON",
      "                        AST (default: parse)",
      "  --repl                "
        ++ "Launch the interactive REPL"]

/- A complaint, after the usage. -/
def usageError
    (complaint : String) : Output :=
  Output.complaint
    (usage ++ "\npygmaea: error: " ++ complaint ++ "\n")

------------------------------------------------------------
-- Running
------------------------------------------------------------

/-
  What a program finds around it: the user, the keyboard and
  the files.
-/
structure Surroundings where
  user : Option String
  inputs : List Shell.Input
  files : Files

/-
  How a program ends: with a status, by leaving early with a
  code, or by a fault that nobody handles.
-/
inductive Ending where
  | returned (status : Nat)
  | exited (code : Nat)
  | escaped (fault : Fault)
  deriving DecidableEq, Repr

/- The code of a usage error. -/
def misuseCode : Nat :=
  2

/-
  What a command line comes down to: the shell, a source to
  show, or an immediate answer with an exit code.
-/
inductive Plan where
  | shell (mode : Shell.Mode)
  | present (request : Request)
  | answer (output : Output) (code : Nat)
  deriving DecidableEq, Repr

/- The mode of the shell for a chosen view. -/
def shellMode : Option View → Shell.Mode
  | some .tokens => .tokens
  | _ => .statements

/- The refusal of arguments, with the usage. -/
def refusal
    (complaint : String) : Plan :=
  .answer (usageError complaint) misuseCode

/-
  What settings come down to. Without a view a source cannot
  be shown, and the complaint names an empty list instead.
-/
def planOf
    (settings : Settings) : Plan :=
  match settings.shell, settings.source with
  | false, some source =>
      match settings.view with
      | some view =>
          .present ⟨source, settings.isText, view⟩
      | none => refusal (Trouble.unknownView "[]").message
  | _, _ => .shell (shellMode settings.view)

/- What the arguments of a command line come down to. -/
def plan
    (arguments : List String) : Plan :=
  match settings arguments with
  | .ok settings => planOf settings
  | .error .help => .answer helpText 0
  | .error (.misuse misuse) => refusal misuse.message

/-
  A session of the shell, whose status is always zero. Its
  reports show no frames.
-/
def startShell
    (surroundings : Surroundings)
    (mode : Shell.Mode) : Output × Ending :=
  match Shell.session Shell.Frames.none surroundings.user
      mode surroundings.inputs with
  | (output, none) => (output, .returned 0)
  | (output, some fault) => (output, .escaped fault)

/- Show a source. -/
def present
    (files : Files)
    (request : Request) : Output × Ending :=
  match request.serve files with
  | .ok (output, status) => (output, .returned status)
  | .error (.ofFault (.contradiction token reason)) =>
      (Output.empty,
        .escaped (.contradiction token reason))
  | .error trouble =>
      (usageError trouble.message, .exited misuseCode)

/- Run the program on its arguments. -/
def run
    (surroundings : Surroundings)
    (arguments : List String) : Output × Ending :=
  match plan arguments with
  | .shell mode => startShell surroundings mode
  | .present request =>
      present surroundings.files request
  | .answer output code => (output, .exited code)

end CommandLine

end LetLang

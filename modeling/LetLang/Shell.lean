import LetLang.Inspect
import LetLang.Text.Blank

/-
  The interactive shell: a greeting, and then an answer to
  every line that is read.

  A line is judged by its text without the blanks around it.
  It is skipped if nothing is left, ends the shell if it is
  a command to do so, and changes the mode if it names one
  after a colon. Any other line is shown as it was read, in
  the mode in force, and independently of all other lines.

  A line with a token that contradicts its kind is reported
  with the stack frames at which the token was refused. They
  tell of the program that reads the line and not of the
  language, so they are a parameter here.

  Key definitions include:
    * `Shell.Mode`
    * `Shell.Frames`
    * `Shell.faultReport`
    * `Shell.Input`
    * `Shell.respond`
    * `Shell.loop`
    * `Shell.session`
-/

namespace LetLang

namespace Shell

------------------------------------------------------------
-- Modes and Commands
------------------------------------------------------------

/- How the shell shows a line. -/
inductive Mode where
  | tokens
  | statements
  deriving DecidableEq, Repr

namespace Mode

/- Every mode. -/
def all : List Mode :=
  [.tokens, .statements]

/- The word by which a mode is chosen. -/
def name : Mode → String
  | .tokens => "tokens"
  | .statements => "parse"

/- The mode chosen by a word. -/
def ofName?
    (word : String) : Option Mode :=
  all.find? (fun mode => mode.name == word)

end Mode

/- What stands before every line that is read. -/
def prompt : String :=
  ">> "

/- The lines that end the shell. -/
def exitCommands : List String :=
  [":exit", ":quit", ":q"]

/- The mode that a command selects: a colon and its name. -/
def modeCommand?
    (command : String) : Option Mode :=
  match command.toList with
  | ':' :: word => Mode.ofName? (String.ofList word)
  | _ => none

/- The confirmation of a change of mode. -/
def announce
    (mode : Mode) : Output :=
  Output.line ("[mode] >>> " ++ mode.name)

------------------------------------------------------------
-- Greeting
------------------------------------------------------------

/- How the user is called; the name may be unknown. -/
def userName
    (user : Option String) : String :=
  user.getD "stranger"

/- The text that opens the shell. -/
def greeting
    (user : Option String) : Output :=
  Output.lines
    ["Hello " ++ userName user
        ++ "! This is the pygmaea programming language!",
      "Feel free to type in commands"]

------------------------------------------------------------
-- Reports
------------------------------------------------------------

/-
  The text of the stack frames that a report shows for a
  line: outermost first, with a line end behind each of its
  lines.
-/
abbrev Frames :=
  String → String

/- This program has no frames of its own to show. -/
def Frames.none : Frames :=
  fun _ => ""

/-
  The report on a line with a token that contradicts its
  kind: a header, the frames, the error with its message,
  and an empty line.
-/
def faultReport
    (frames : String)
    (message : String) : Output :=
  Output.lines
      ["[error] >>>", "Traceback (most recent call last):"]
    ++ Output.text frames
    ++ Output.lines
      ["pygmaea.pygmaea_errors.LexicalInvariantError: "
          ++ message,
        ""]

------------------------------------------------------------
-- Lines
------------------------------------------------------------

/-
  Show a line. A token that contradicts its kind is reported;
  a numeral too long to be converted is not, and ends the
  shell.
-/
def answer
    (frames : Frames)
    (mode : Mode)
    (text : String) : Except Fault Output :=
  match mode with
  | .tokens => .ok (Inspect.listTokens text)
  | .statements =>
      match Inspect.program Inspect.statements text with
      | .ok shown => .ok shown.output
      | .error (.contradiction token reason) =>
          .ok (faultReport (frames text)
            (Fault.contradiction token reason).message)
      | .error (.digitLimit count) =>
          .error (.digitLimit count)

/- What the shell does after a line. -/
inductive Next where
  | goOn (mode : Mode)
  | stop
  | escape (fault : Fault)
  deriving DecidableEq, Repr

/-
  What the shell writes for a line, and what it does next.
-/
def respond
    (frames : Frames)
    (mode : Mode)
    (text : String) : Output × Next :=
  let command := String.ofList (Text.trim text.toList)
  if command = "" then
    (Output.empty, .goOn mode)
  else if exitCommands.contains command then
    (Output.empty, .stop)
  else
    match modeCommand? command with
    | some chosen => (announce chosen, .goOn chosen)
    | none =>
        match answer frames mode text with
        | .ok output => (output, .goOn mode)
        | .error fault => (Output.empty, .escape fault)

------------------------------------------------------------
-- Sessions
------------------------------------------------------------

/- What comes from the keyboard: a line, or an interrupt. -/
inductive Input where
  | line (text : String)
  | interrupt
  deriving DecidableEq, Repr

/- What is written when there is no further line. -/
def farewell : Output :=
  Output.line ""

/-
  Read lines and answer them, with the prompt before each.
  The fault of a line that ended the shell is returned.
-/
def loop
    (frames : Frames)
    (mode : Mode) : List Input → Output × Option Fault
  | [] => (Output.text prompt ++ farewell, none)
  | .interrupt :: _ =>
      (Output.text prompt ++ farewell, none)
  | .line text :: inputs =>
      let (output, next) := respond frames mode text
      let answered := Output.text prompt ++ output
      match next with
      | .goOn mode =>
          let (later, fault) := loop frames mode inputs
          (answered ++ later, fault)
      | .stop => (answered, none)
      | .escape fault => (answered, some fault)

/- A whole session, from the greeting on. -/
def session
    (frames : Frames)
    (user : Option String)
    (mode : Mode)
    (inputs : List Input) : Output × Option Fault :=
  let (output, fault) := loop frames mode inputs
  (greeting user ++ output, fault)

------------------------------------------------------------
-- Sessions by the Name of a Mode
------------------------------------------------------------

/- The refusal to start in a mode that does not exist. -/
structure UnknownMode where
  name : String
  deriving DecidableEq, Repr

/- The report on an unknown mode. -/
def UnknownMode.message
    (unknown : UnknownMode) : String :=
  "Unknown REPL mode: " ++ unknown.name

/-
  A whole session in the mode of a given name, without
  frames in its reports. Nothing is written if there is no
  such mode.
-/
def sessionIn
    (user : Option String)
    (modeName : String)
    (inputs : List Input) :
    Except UnknownMode (Output × Option Fault) :=
  match Mode.ofName? modeName with
  | some mode =>
      .ok (session Frames.none user mode inputs)
  | none => .error ⟨modeName⟩

end Shell

end LetLang

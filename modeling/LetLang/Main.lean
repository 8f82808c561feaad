import LetLang.CommandLine.Command

/-
  The program on a real terminal: it reads the arguments,
  the user's name, the files and the keyboard, and writes
  what the library answers.

  Key definitions include:
    * `main`
-/

namespace LetLang

namespace Main

------------------------------------------------------------
-- Surroundings
------------------------------------------------------------

/- Write the two texts of an output. -/
def write
    (output : Output) : IO Unit := do
  let out ← IO.getStdout
  out.putStr output.out
  out.flush
  (← IO.getStderr).putStr output.err

/- The first of some variables that is set to a text. -/
def firstVariable : List String → IO (Option String)
  | [] => return none
  | name :: names => do
      match ← IO.getEnv name with
      | some "" => firstVariable names
      | some value => return some value
      | none => firstVariable names

/- The name of the user, as the environment tells it. -/
def userName : IO (Option String) :=
  firstVariable ["LOGNAME", "USER", "LNAME", "USERNAME"]

/-
  Whether an error of the system has a given number. Some
  calls report the negative of the number.
-/
def hasNumber
    (code number : UInt32) : Bool :=
  code == number || code == 0 - number

/- Why the system found no file, as far as it is known. -/
def refusalOf? : IO.Error → Option File.Refusal
  | .noFileOrDirectory .. => some .notFound
  | .inappropriateType _ code _ =>
      if hasNumber code 20 then
        some .notDirectory
      else
        some .isDirectory
  | .invalidArgument _ code _ =>
      if hasNumber code 36 then some .nameTooLong else none
  | _ => none

/- The bytes of a file of the system. -/
def bytesOf
    (path : String) :
    IO (Except File.Failure (List UInt8)) := do
  try
    return .ok (← IO.FS.readBinFile path).toList
  catch failure =>
    match refusalOf? failure with
    | some refusal => return .error (.refused refusal path)
    | none => throw failure

/- The files that a request needs. -/
def filesOf
    (request : Request) : IO Files := do
  if request.isText
      || !Request.isSourceName request.source then
    return fun path => .error (.refused .notFound path)
  else
    let bytes ← bytesOf request.source
    return fun _ => bytes

------------------------------------------------------------
-- Running
------------------------------------------------------------

/- The status of an ending; a fault is reported. -/
def statusOf : CommandLine.Ending → IO UInt32
  | .returned status => return status.toUInt32
  | .exited code => return code.toUInt32
  | .escaped fault => do
      (← IO.getStderr).putStrLn fault.message
      return 1

/- The text of a line that was read, without its end. -/
def withoutEnd
    (line : String) : String :=
  String.ofList
    (Text.withoutLineEnd line.toList)

/- Answer lines until one of them ends the shell. -/
partial def interact
    (mode : Shell.Mode) : IO UInt32 := do
  write (Output.text Shell.prompt)
  let line ← (← IO.getStdin).getLine
  if line.isEmpty then
    write Shell.farewell
    return 0
  let (output, next) :=
    Shell.respond Shell.Frames.none mode (withoutEnd line)
  write output
  match next with
  | .goOn mode => interact mode
  | .stop => return 0
  | .escape fault => statusOf (.escaped fault)

/- Carry out what a command line comes down to. -/
def carryOut : CommandLine.Plan → IO UInt32
  | .shell mode => do
      write (Shell.greeting (← userName))
      interact mode
  | .present request => do
      let (output, ending) :=
        CommandLine.present (← filesOf request) request
      write output
      statusOf ending
  | .answer output code => do
      write output
      statusOf (.exited code)

end Main

end LetLang

/- Run the program on its arguments. -/
def main
    (arguments : List String) : IO UInt32 :=
  LetLang.Main.carryOut (LetLang.CommandLine.plan arguments)

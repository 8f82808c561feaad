import LetLang.Text.Decimal
import LetLang.Text.Quoted

/-
  The arguments of a command line: which of them are options
  and which are plain.

  A long option may be cut to an unambiguous beginning and
  may carry a value after an equals sign. Short options may
  be clustered. What only looks like an option is plain: a
  negative number, a text with a space, the empty text and
  the lone dash, and everything after the divider `--`.

  Key definitions include:
    * `CommandLine.Flag`
    * `CommandLine.Spelling`
    * `CommandLine.Argument`
    * `CommandLine.Misuse`
    * `CommandLine.Misuse.message`
    * `CommandLine.classify`
-/

namespace LetLang

namespace CommandLine

------------------------------------------------------------
-- Flags
------------------------------------------------------------

/- The options that exist. -/
inductive Flag where
  | help
  | string
  | mode
  | repl
  deriving DecidableEq, Repr

namespace Flag

/- Every flag, in the order in which candidates are named. -/
def all : List Flag :=
  [.help, .string, .mode, .repl]

/- The long form of a flag. -/
def long : Flag → String
  | .help => "--help"
  | .string => "--string"
  | .mode => "--mode"
  | .repl => "--repl"

/- The letter of a flag, if it has one. -/
def letter? : Flag → Option Char
  | .help => some 'h'
  | .string => some 's'
  | .mode => some 'm'
  | .repl => none

/- All forms of a flag, for messages. -/
def display
    (flag : Flag) : String :=
  match flag.letter? with
  | some letter =>
      "-" ++ String.singleton letter ++ "/" ++ flag.long
  | none => flag.long

/- The flag with a given letter. -/
def ofLetter?
    (letter : Char) : Option Flag :=
  all.find? (fun flag => flag.letter? == some letter)

/-
  The flags whose long form is a given text; if there is
  none, those whose long form starts with it.
-/
def candidates
    (text : List Char) : List Flag :=
  match all.filter (fun flag => flag.long.toList == text) with
  | [] =>
      all.filter (fun flag =>
        text.isPrefixOf flag.long.toList)
  | exact => exact

end Flag

------------------------------------------------------------
-- Misuse
------------------------------------------------------------

/- What is wrong with a command line. -/
inductive Misuse where
  | ambiguous (argument : String) (flags : List Flag)
  | surplusValue (flag : Flag) (value : String)
  | missingValue (flag : Flag)
  | invalidChoice
      (flag : Flag)
      (value : String)
      (choices : List String)
  | unrecognized (arguments : List String)
  deriving DecidableEq, Repr

namespace Misuse

/- The text about an option that was misused. -/
def about
    (flag : Flag)
    (text : String) : String :=
  "argument " ++ flag.display ++ ": " ++ text

/- The report on a misused command line. -/
def message : Misuse → String
  | .ambiguous argument flags =>
      "ambiguous option: " ++ argument ++ " could match "
        ++ ", ".intercalate (flags.map Flag.long)
  | .surplusValue flag value =>
      about flag
        ("ignored explicit argument " ++ Text.quoted value)
  | .missingValue flag =>
      about flag "expected one argument"
  | .invalidChoice flag value choices =>
      about flag
        ("invalid choice: " ++ Text.quoted value
          ++ " (choose from "
          ++ ", ".intercalate (choices.map Text.quoted)
          ++ ")")
  | .unrecognized arguments =>
      "unrecognized arguments: "
        ++ " ".intercalate arguments

end Misuse

------------------------------------------------------------
-- Arguments
------------------------------------------------------------

/-
  How an option is written: its flag, and what stands after
  it in the same argument. After a long form that can only
  be the value; after a letter it may be further letters.
-/
inductive Spelling where
  | long (flag : Flag) (value : Option String)
  | short (flag : Flag) (tail : Option String)
  deriving DecidableEq, Repr

/- An argument after it was classified. -/
inductive Argument where
  | plain (text : String)
  | divider
  | option (spelling : Spelling)
  | unknown (text : String)
  deriving DecidableEq, Repr

/- Something like an option that names no flag. -/
def unmatched
    (text : List Char) : Argument :=
  if Text.looksNegative text || text.contains ' ' then
    .plain (String.ofList text)
  else
    .unknown (String.ofList text)

/- The text after the first equals sign, if there is one. -/
def valueAfterEquals
    (text : List Char) : Option String :=
  match text.dropWhile (· != '=') with
  | [] => none
  | _ :: value => some (String.ofList value)

/- An argument that starts with two dashes. -/
def classifyLong
    (text : List Char) : Except Misuse Argument :=
  match Flag.candidates (text.takeWhile (· != '=')) with
  | [] => .ok (unmatched text)
  | [flag] =>
      .ok (.option (.long flag (valueAfterEquals text)))
  | flags => .error (.ambiguous (String.ofList text) flags)

/-
  What stands after the letter of a short option. An equals
  sign right after the letter does not belong to it.
-/
def tailAfterLetter : List Char → Option String
  | [] => none
  | '=' :: tail => some (String.ofList tail)
  | tail => some (String.ofList tail)

/-
  An argument by itself, where the divider has not come yet.
-/
def classifyOne
    (argument : String) : Except Misuse Argument :=
  match argument.toList with
  | '-' :: '-' :: tail =>
      if tail.isEmpty then
        .ok .divider
      else
        classifyLong ('-' :: '-' :: tail)
  | '-' :: letter :: tail =>
      match Flag.ofLetter? letter with
      | some flag =>
          .ok (.option (.short flag (tailAfterLetter tail)))
      | none => .ok (unmatched ('-' :: letter :: tail))
  | _ => .ok (.plain argument)

/- All arguments; behind the divider they are plain. -/
def classify : List String → Except Misuse (List Argument)
  | [] => .ok []
  | argument :: arguments =>
      match classifyOne argument with
      | .error misuse => .error misuse
      | .ok .divider =>
          .ok (.divider :: arguments.map Argument.plain)
      | .ok one =>
          (classify arguments).map (one :: ·)

end CommandLine

end LetLang

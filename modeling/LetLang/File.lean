import LetLang.Text.Newline
import LetLang.Text.Quoted
import LetLang.Text.Utf8

/-
  Reading texts from files.

  A file is found by a path and read as strict UTF-8, and
  its line ends become line feeds.

  Key definitions include:
    * `File.Refusal`
    * `File.Failure`
    * `File.Failure.message`
    * `Files`
    * `Files.text`
-/

namespace LetLang

namespace File

------------------------------------------------------------
-- Failures
------------------------------------------------------------

/- Why a path leads to no file. -/
inductive Refusal where
  | notFound
  | notDirectory
  | isDirectory
  | nameTooLong
  deriving DecidableEq, Repr

namespace Refusal

/- The number under which a refusal is reported. -/
def number : Refusal → String
  | .notFound => "2"
  | .notDirectory => "20"
  | .isDirectory => "21"
  | .nameTooLong => "36"

/- The words in which a refusal is reported. -/
def describe : Refusal → String
  | .notFound => "No such file or directory"
  | .notDirectory => "Not a directory"
  | .isDirectory => "Is a directory"
  | .nameTooLong => "File name too long"

end Refusal

/- Why no text was read. -/
inductive Failure where
  | nulInPath
  | refused (refusal : Refusal) (path : String)
  | undecodable (failure : Text.Utf8.Failure)
  deriving DecidableEq, Repr

namespace Failure

/- The report on a text that was not read. -/
def message : Failure → String
  | .nulInPath => "embedded null byte"
  | .refused refusal path =>
      "[Errno " ++ refusal.number ++ "] "
        ++ refusal.describe ++ ": " ++ Text.quoted path
  | .undecodable failure => failure.message

end Failure

------------------------------------------------------------
-- Reading
------------------------------------------------------------

/- The text of a file's bytes. -/
def textOf
    (bytes : List UInt8) : Except Failure String :=
  match Text.Utf8.decode bytes with
  | .ok text =>
      .ok (String.ofList (Text.foldNewlines text))
  | .error failure => .error (.undecodable failure)

end File

/- The bytes under each path, or why there are none. -/
abbrev Files :=
  String → Except File.Failure (List UInt8)

/- Read the text of the file under a path. -/
def Files.text
    (files : Files)
    (path : String) : Except File.Failure String :=
  match files path with
  | .ok bytes => File.textOf bytes
  | .error failure => .error failure

end LetLang

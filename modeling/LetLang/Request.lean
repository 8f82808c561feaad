import LetLang.File
import LetLang.Inspect

/-
  Requests to show a source: which view of it, and whether
  the source is given as a text or by the name of a file.

  A file is recognised by its suffix. A view given by its
  name is looked up before the source is looked at.

  Key definitions include:
    * `Request`
    * `Trouble`
    * `Trouble.message`
    * `Request.named`
    * `Request.serve`
-/

namespace LetLang

/- A source to show in a view. -/
structure Request where
  source : String
  isText : Bool
  view : View
  deriving DecidableEq, Repr

/- Why a request was not served. -/
inductive Trouble where
  | unknownView (name : String)
  | unsupportedSuffix
  | unreadable (failure : File.Failure)
  | ofFault (fault : Fault)
  deriving DecidableEq, Repr

namespace Trouble

/- The report on a request that was not served. -/
def message : Trouble → String
  | .unknownView name => "Unknown output mode: " ++ name
  | .unsupportedSuffix =>
      "Only .pgm and .monkey files are supported."
  | .unreadable failure => failure.message
  | .ofFault fault => fault.message

end Trouble

namespace Request

/- The request for a view that is given by its name. -/
def named
    (source : String)
    (isText : Bool)
    (viewName : String) : Except Trouble Request :=
  match View.ofName? viewName with
  | some view => .ok ⟨source, isText, view⟩
  | none => .error (.unknownView viewName)

/- The suffixes of source files. -/
def suffixes : List String :=
  [".pgm", ".monkey"]

/- Whether a file name has the suffix of a source file. -/
def isSourceName
    (name : String) : Bool :=
  suffixes.any (fun suffix =>
    suffix.toList.isSuffixOf name.toList)

/- The text that a request is about. -/
def text
    (request : Request)
    (files : Files) : Except Trouble String :=
  if request.isText then
    .ok request.source
  else if isSourceName request.source then
    (files.text request.source).mapError Trouble.unreadable
  else
    .error .unsupportedSuffix

/- What is written for a request, and its status. -/
def serve
    (request : Request)
    (files : Files) : Except Trouble (Output × Nat) := do
  let text ← request.text files
  (Inspect.view request.view text).mapError Trouble.ofFault

end Request

end LetLang

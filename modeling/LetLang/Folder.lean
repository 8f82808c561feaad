import LetLang.File

/-
  A folder of files, and following paths through it.

  A path is a row of steps between slashes. Every step has
  to start from a directory. The empty step and a single dot
  stay there, two dots go back, and any other step goes on
  to what has that name. A path that starts with a slash, or
  goes back too far, has left the folder; nothing is known
  to stand outside of it.

  Key definitions include:
    * `Folder`
    * `Folder.steps`
    * `Folder.Place`
    * `Folder.enter`
    * `Folder.follow`
    * `Folder.files`
-/

namespace LetLang

------------------------------------------------------------
-- Folders
------------------------------------------------------------

/- What stands at some place in a folder. -/
inductive Folder.Entry where
  | file (bytes : List UInt8)
  | directory
  deriving DecidableEq, Repr

/- The entries of a folder by the names that lead to them. -/
abbrev Folder :=
  List (List String × Folder.Entry)

namespace Folder

------------------------------------------------------------
-- Paths
------------------------------------------------------------

/- The texts between the slashes of a path. -/
def split : List Char → List (List Char)
  | [] => [[]]
  | '/' :: path => [] :: split path
  | c :: path =>
      match split path with
      | [] => [[c]]
      | step :: later => (c :: step) :: later

/- The steps of a path. -/
def steps
    (path : String) : List String :=
  (split path.toList).map String.ofList

/- The names among the steps of a path. -/
def names
    (path : String) : List String :=
  (steps path).filter
    (fun step => step != "" && step != ".")

/- A name has no more bytes than this in UTF-8. -/
def maxNameSize : Nat :=
  255

/- A path has no more bytes than this in UTF-8. -/
def maxPathSize : Nat :=
  4095

------------------------------------------------------------
-- Following a Path
------------------------------------------------------------

/-
  Where a path has led: to a file, to a directory given by
  the names on the way to it, or out of the folder.
-/
inductive Place where
  | file (bytes : List UInt8)
  | directory (names : List String)
  | outside
  deriving DecidableEq, Repr

/-
  What stands under a row of names. What has entries below
  it is a directory, even if it is not listed itself.
-/
def placeOf
    (folder : Folder)
    (names : List String) : Except File.Refusal Place :=
  match folder.lookup names with
  | some (.file bytes) => .ok (.file bytes)
  | some .directory => .ok (.directory names)
  | none =>
      if folder.any (fun entry =>
          names.isPrefixOf entry.1) then
        .ok (.directory names)
      else
        .error .notFound

/- The directory around a place. -/
def Place.back : Place → Place
  | .directory (name :: names) =>
      .directory (name :: names).dropLast
  | _ => .outside

/- Go on to what has a given name. -/
def descend
    (folder : Folder)
    (place : Place)
    (name : String) : Except File.Refusal Place :=
  if maxNameSize < name.utf8ByteSize then
    .error .nameTooLong
  else
    match place with
    | .directory names => folder.placeOf (names ++ [name])
    | _ => .error .notFound

/- Take one step of a path. -/
def enter
    (folder : Folder)
    (place : Place)
    (step : String) : Except File.Refusal Place :=
  match place with
  | .file _ => .error .notDirectory
  | place =>
      if step = "" ∨ step = "." then
        .ok place
      else if step = ".." then
        .ok place.back
      else
        folder.descend place step

/- Where the steps of a path start. -/
def start
    (path : String) : Place :=
  match path.toList with
  | '/' :: _ => .outside
  | _ => .directory []

/- Where a path leads. -/
def follow
    (folder : Folder)
    (path : String) : Except File.Refusal Place :=
  if maxPathSize < path.utf8ByteSize then
    .error .nameTooLong
  else
    (steps path).foldlM folder.enter (start path)

/- The files of a folder. -/
def files
    (folder : Folder) : Files :=
  fun path =>
    if path.toList.contains '\x00' then
      .error .nulInPath
    else
      match folder.follow path with
      | .ok (.file bytes) => .ok bytes
      | .ok _ => .error (.refused .isDirectory path)
      | .error refusal => .error (.refused refusal path)

end Folder

end LetLang

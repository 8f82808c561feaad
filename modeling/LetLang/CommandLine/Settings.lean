import LetLang.CommandLine.Demand
import LetLang.Inspect

/-
  Settings: what a command line asks for.

  Arguments take effect from left to right, and the last
  choice of a view counts. The first fault ends the reading,
  and so does a request for help. The source is the first
  plain argument; the divider takes the place of a source
  that was left out. Arguments for which there is no use are
  only complained about at the end.

  Key definitions include:
    * `CommandLine.Settings`
    * `CommandLine.Interruption`
    * `CommandLine.settings`
-/

namespace LetLang

namespace CommandLine

------------------------------------------------------------
-- Settings
------------------------------------------------------------

/-
  What was asked for. There is no view if the divider stands
  where the name of one belongs.
-/
structure Settings where
  source : Option String
  isText : Bool
  view : Option View
  shell : Bool
  deriving DecidableEq, Repr

/-
  Settings while they are read: whether a place for the
  source has been passed, and what was of no use.
-/
structure Reading where
  settings : Settings
  hasSource : Bool
  unused : List String
  deriving DecidableEq, Repr

/- Why reading ended early. -/
inductive Interruption where
  | help
  | misuse (misuse : Misuse)
  deriving DecidableEq, Repr

namespace Reading

/- Nothing has been asked for. -/
def start : Reading :=
  ⟨⟨none, false, some .statements, false⟩, false, []⟩

/- Note an argument for which there is no use. -/
def leave
    (reading : Reading)
    (argument : String) : Reading :=
  { reading with
    unused := reading.unused ++ [argument] }

/- Pass the place of the source. -/
def takeSource
    (reading : Reading)
    (source : Option String) : Reading :=
  { reading with
    hasSource := true
    settings := { reading.settings with source := source } }

------------------------------------------------------------
-- Demands
------------------------------------------------------------

/- Set the view, or leave none. -/
def setView
    (reading : Reading)
    (view : Option View) : Reading :=
  { reading with
    settings := { reading.settings with view := view } }

/-
  Choose a view by its name. The divider is dropped even
  here, and then no view is chosen.
-/
def chooseView
    (reading : Reading)
    (name : String) : Except Interruption Reading :=
  if name = "--" then
    .ok (reading.setView none)
  else
    match View.ofName? name with
    | some view => .ok (reading.setView (some view))
    | none =>
        .error (.misuse
          (.invalidChoice .mode name
            (View.all.map View.name)))

/- Meet one demand. -/
def meet
    (reading : Reading) :
    Demand → Except Interruption Reading
  | .help => .error .help
  | .asText =>
      .ok { reading with
        settings :=
          { reading.settings with isText := true } }
  | .view name => reading.chooseView name
  | .shell =>
      .ok { reading with
        settings := { reading.settings with shell := true } }

/- Meet demands in order. -/
def meetAll
    (reading : Reading)
    (demands : List Demand) :
    Except Interruption Reading :=
  demands.foldlM meet reading

------------------------------------------------------------
-- Arguments
------------------------------------------------------------

/-
  Read arguments in order. A source takes the divider before
  or after it along, and an option that needs a value takes
  the plain argument after it.
-/
def read
    (reading : Reading) :
    List Argument → Except Interruption Reading
  | [] => .ok reading
  | .unknown text :: arguments =>
      read (reading.leave text) arguments
  | .plain text :: .divider :: arguments =>
      if reading.hasSource then
        read (reading.leave text) (.divider :: arguments)
      else
        read (reading.takeSource (some text)) arguments
  | .plain text :: arguments =>
      if reading.hasSource then
        read (reading.leave text) arguments
      else
        read (reading.takeSource (some text)) arguments
  | .divider :: .plain text :: arguments =>
      if reading.hasSource then
        read (reading.leave "--") (.plain text :: arguments)
      else
        read (reading.takeSource (some text)) arguments
  | .divider :: arguments =>
      if reading.hasSource then
        read (reading.leave "--") arguments
      else
        read (reading.takeSource none) arguments
  | .option spelling :: .plain value :: arguments =>
      match Cluster.ofSpelling spelling with
      | .error misuse => .error (.misuse misuse)
      | .ok ⟨demands, false⟩ =>
          match reading.meetAll demands with
          | .error interruption => .error interruption
          | .ok applied =>
              read applied (.plain value :: arguments)
      | .ok ⟨demands, true⟩ =>
          match reading.meetAll
              (demands ++ [.view value]) with
          | .error interruption => .error interruption
          | .ok applied => read applied arguments
  | .option spelling :: arguments =>
      match Cluster.ofSpelling spelling with
      | .error misuse => .error (.misuse misuse)
      | .ok ⟨demands, false⟩ =>
          match reading.meetAll demands with
          | .error interruption => .error interruption
          | .ok applied => read applied arguments
      | .ok ⟨_, true⟩ =>
          .error (.misuse (.missingValue .mode))

end Reading

/- What a command line asks for. -/
def settings
    (arguments : List String) :
    Except Interruption Settings :=
  match classify arguments with
  | .error misuse => .error (.misuse misuse)
  | .ok classified =>
      match Reading.start.read classified with
      | .error interruption => .error interruption
      | .ok reading =>
          if reading.unused.isEmpty then
            .ok reading.settings
          else
            .error (.misuse (.unrecognized reading.unused))

end CommandLine

end LetLang

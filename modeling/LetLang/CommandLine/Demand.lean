import LetLang.CommandLine.Argument

/-
  Demands: what the options of a command line ask for.

  One argument may hold a cluster of short options, so it
  comes down to a list of demands. The option that chooses a
  view needs a name: the rest of its own argument if there
  is one, and otherwise the argument after it.

  Key definitions include:
    * `CommandLine.Demand`
    * `CommandLine.Flag.demand?`
    * `CommandLine.Cluster`
    * `CommandLine.Cluster.ofSpelling`
-/

namespace LetLang

namespace CommandLine

/- What an option asks for; a view is asked for by name. -/
inductive Demand where
  | help
  | asText
  | view (name : String)
  | shell
  deriving DecidableEq, Repr

/- What a flag asks for, unless it needs a value. -/
def Flag.demand? : Flag → Option Demand
  | .help => some .help
  | .string => some .asText
  | .mode => none
  | .repl => some .shell

/-
  What one argument with options asks for: its demands in
  order, and whether the name of a view has to follow them.
-/
structure Cluster where
  demands : List Demand
  needsView : Bool
  deriving DecidableEq, Repr

namespace Cluster

/- The cluster of a single demand. -/
def single
    (demand : Demand) : Cluster :=
  ⟨[demand], false⟩

/- The cluster that waits for the name of a view. -/
def awaitingView : Cluster :=
  ⟨[], true⟩

/- One more demand in front of a cluster. -/
def after
    (demand : Demand)
    (cluster : Cluster) : Cluster :=
  { cluster with demands := demand :: cluster.demands }

/- The cluster of a flag, with a value if one is given. -/
def ofValue
    (flag : Flag)
    (value : Option String) : Except Misuse Cluster :=
  match flag.demand?, value with
  | none, none => .ok awaitingView
  | none, some name => .ok (single (.view name))
  | some demand, none => .ok (single demand)
  | some _, some value => .error (.surplusValue flag value)

/-
  The cluster of a flag and the characters after its letter.
  A flag that needs a value takes all of them. After another
  flag the next character has to be the letter of a flag; if
  it is not, all of them are taken for a value that has no
  place.
-/
def ofLetters
    (flag : Flag)
    (tail : List Char) : Except Misuse Cluster :=
  match flag.demand?, tail with
  | none, [] => .ok awaitingView
  | none, name => .ok (single (.view (String.ofList name)))
  | some demand, [] => .ok (single demand)
  | some demand, letter :: tail =>
      match Flag.ofLetter? letter with
      | some next => (ofLetters next tail).map (after demand)
      | none =>
          .error (.surplusValue flag
            (String.ofList (letter :: tail)))

/-
  The cluster that an option stands for. An empty text after
  the letter of a short option is a value.
-/
def ofSpelling : Spelling → Except Misuse Cluster
  | .long flag value => ofValue flag value
  | .short flag none => ofValue flag none
  | .short flag (some "") => ofValue flag (some "")
  | .short flag (some tail) => ofLetters flag tail.toList

end Cluster

end CommandLine

end LetLang

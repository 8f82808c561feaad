import LetLang.Parse.Operand
import LetLang.Parse.Stream
import LetLang.Tree.Stmt

/-
  The state of a parse: the tokens before it and the errors
  behind it.

  Rules act on a state and end in a result, in a raised
  error, or in a fault. A raised error is not in the log
  yet; the rule that called for the result decides whether
  to record it. Whoever raises another error from it records
  it first.

  Key definitions include:
    * `Parse.State`
    * `Parse.Reply`
    * `Parse.Reply.andThen`
    * `Parse.Reply.raising`
-/

namespace LetLang

namespace Parse

------------------------------------------------------------
-- States
------------------------------------------------------------

/- A token stream and the log of errors. -/
structure State where
  stream : TokenStream
  log : Log
  deriving DecidableEq, Repr

namespace State

/- The state before anything has been parsed. -/
def ofStream
    (stream : TokenStream) : State :=
  ⟨stream, #[]⟩

/- The state after the current token. -/
def advance
    (state : State) : State :=
  { state with stream := state.stream.advance }

/- Record an error. -/
def record
    (state : State)
    (diagnostic : Diagnostic) : State :=
  { state with log := state.log.push diagnostic }

/- Record that a token of a kind was expected. -/
def recordUnexpected
    (state : State)
    (expected : Token.Kind)
    (found : Option Token) : State :=
  state.record
    (Diagnostic.root (.unexpectedToken expected found))

theorem length_advance_le
    (state : State) :
    state.advance.stream.rest.length ≤
      state.stream.rest.length :=
  state.stream.length_advance_le

end State

------------------------------------------------------------
-- Replies
------------------------------------------------------------

/- What a rule makes of a state. -/
abbrev Reply
    (α : Type) :=
  Outcome Diagnostic α × State

namespace Reply

/- Carry on after a result; an error or a fault stands. -/
def andThen {α β : Type}
    (reply : Reply α)
    (next : α → State → Reply β) : Reply β :=
  match reply with
  | (.done result, after) => next result after
  | (.failed raised, after) => (.failed raised, after)
  | (.fatal fault, after) => (.fatal fault, after)

/- Record a raised error, and raise another one from it. -/
def raising {α : Type}
    (error : ParseError) : Reply α → Reply α
  | (.failed raised, state) =>
      let (log, outer) := state.log.citing raised error
      (.failed outer, { state with log := log })
  | reply => reply

theorem stream_raising {α : Type}
    (error : ParseError)
    (reply : Reply α) :
    (raising error reply).2.stream = reply.2.stream := by
  rcases reply with ⟨_ | _ | _, _⟩ <;> rfl

end Reply

end Parse

end LetLang

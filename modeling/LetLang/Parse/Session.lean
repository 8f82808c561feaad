import LetLang.Parse.Program

/-
  Sessions on a parse: a sequence of calls of its rules, in
  any order and with any arguments, with the reply to each.

  A call that raises an error or ends in a fault leaves the
  state as it stands, and the next call goes on from there.

  Key definitions include:
    * `Parse.Call`
    * `Parse.Answer`
    * `Parse.State.answer`
    * `Parse.State.answers`
-/

namespace LetLang

namespace Parse

------------------------------------------------------------
-- Calls and Answers
------------------------------------------------------------

/-
  What can be asked of a parse. A faulty call has an
  argument that could not be built.
-/
inductive Call where
  | nextToken
  | takeCurrent
  | currentIs (kind : Token.Kind)
  | peekIs (kind : Token.Kind)
  | recordUnexpected
      (expected : Token.Kind)
      (found : Option Token)
  | bindsAbove (floor : Level)
  | program
  | statement
  | binding
  | result
  | bareExpression
  | expression (floor : Level)
  | operand (token : Token)
  | constant (token : Token)
  | operation
      (left : Node)
      (operator : Token)
      (floor : Level)
  | faulty (fault : Fault)
  deriving DecidableEq, Repr

/- What a call gives if it succeeds. -/
inductive Answer where
  | nothing
  | token (token : Token)
  | truth (value : Bool)
  | node (node : Node)
  | nodes (nodes : List Node)
  deriving DecidableEq, Repr

namespace Answer

/- An expression as an answer. -/
def ofExpr
    (expr : Expr) : Answer :=
  .node expr.toNode

/- A statement as an answer. -/
def ofStmt
    (stmt : Stmt) : Answer :=
  .node stmt.toNode

/- A program as an answer. -/
def ofProgram
    (program : Program) : Answer :=
  .nodes (program.map Stmt.toNode)

end Answer

------------------------------------------------------------
-- Replies
------------------------------------------------------------

namespace State

/- A reply with its result as an answer. -/
def replyWith {α : Type}
    (answer : α → Answer)
    (reply : Reply α) : Reply Answer :=
  (reply.1.map answer, reply.2)

/- The current token, which has to exist. -/
def takeCurrent
    (state : State) : Reply Answer :=
  match state.stream.current with
  | none =>
      (.failed (Diagnostic.root .missingToken), state)
  | some token => (.done (.token token), state)

/- The rest of the program. -/
def wholeProgram
    (state : State) : Reply Answer :=
  match Parse.program state with
  | (.ok program, after) =>
      (.done (Answer.ofProgram program), after)
  | (.error fault, after) => (.fatal fault, after)

/-
  An operator with a given left operand, whose right one is
  parsed above a level.
-/
def operation
    (state : State)
    (left : Node)
    (operator : Token)
    (floor : Level) : Reply Answer :=
  replyWith
    (fun right =>
      .node (.infixOp operator left right.toNode))
    (Reply.raising (.operandFailed .binary)
      (state.expression floor))

/- The reply to a call. -/
def answer
    (state : State) : Call → Reply Answer
  | .nextToken => (.done .nothing, state.advance)
  | .takeCurrent => state.takeCurrent
  | .currentIs kind =>
      (.done (.truth (state.stream.currentIs kind)), state)
  | .peekIs kind =>
      (.done (.truth (state.stream.peekIs kind)), state)
  | .recordUnexpected expected found =>
      (.done .nothing,
        state.recordUnexpected expected found)
  | .bindsAbove floor =>
      (.done (.truth (state.stream.bindsAbove floor)), state)
  | .program => state.wholeProgram
  | .statement =>
      replyWith Answer.ofStmt (Parse.statement state)
  | .binding =>
      replyWith Answer.ofStmt (Parse.binding state)
  | .result =>
      replyWith Answer.ofStmt (Parse.result state)
  | .bareExpression =>
      replyWith Answer.ofStmt (Parse.bareExpression state)
  | .expression floor =>
      replyWith Answer.ofExpr (state.expression floor)
  | .operand token =>
      replyWith Answer.ofExpr (state.operand token)
  | .constant token =>
      (.done (Answer.ofExpr (Expr.truth token)), state)
  | .operation left operator floor =>
      state.operation left operator floor
  | .faulty fault => (.fatal fault, state)

/- The replies to calls made one after the other. -/
def answers
    (state : State) : List Call → List (Reply Answer)
  | [] => []
  | call :: calls =>
      let reply := state.answer call
      reply :: answers reply.2 calls

/- The errors that were recorded since an earlier state. -/
def recordedSince
    (state earlier : State) : List Diagnostic :=
  state.log.toList.drop earlier.log.size

end State

end Parse

end LetLang

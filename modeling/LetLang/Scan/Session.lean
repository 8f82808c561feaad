import LetLang.Scan.Reader

/-
  Sessions on a reader: a sequence of calls of any kind, in
  any order, with the answer to each of them.

  Besides the reader a session knows its newest iterator.
  An iterator is finished by the end token and stays so; a
  finished one reads nothing.

  Key definitions include:
    * `Scan.Call`
    * `Scan.Answer`
    * `Scan.Session`
    * `Scan.Session.step`
    * `Scan.Session.run`
-/

namespace LetLang

namespace Scan

------------------------------------------------------------
-- Calls and Answers
------------------------------------------------------------

/- What can be asked of a session. -/
inductive Call where
  | nextToken
  | readChar
  | peekChar
  | skipSpaces
  | readWord
  | readNumber
  | newIterator
  | stepIterator
  | drain
  deriving DecidableEq, Repr

/- What a session answers. -/
inductive Answer where
  | nothing
  | token (token : Token)
  | char (c : Char)
  | text (run : String)
  | tokens (listed : List Token)
  deriving DecidableEq, Repr

/- The state of the newest iterator. -/
inductive Iterator where
  | absent
  | running
  | finished
  deriving DecidableEq, Repr

/- A reader with the newest iterator over it. -/
structure Session where
  reader : Reader
  iterator : Iterator
  deriving DecidableEq, Repr

namespace Session

/- A session at the start of a source text. -/
def ofSource
    (source : String) : Session :=
  ⟨Reader.ofSource source, .absent⟩

/- The place in the source at which a session is. -/
def cursor
    (session : Session) : Cursor :=
  session.reader.cursor

------------------------------------------------------------
-- Steps
------------------------------------------------------------

/- Move the newest iterator on, if it is still running. -/
def stepIterator
    (session : Session) : Answer × Session :=
  match session.iterator with
  | .running =>
      let (token, reader) := session.reader.nextToken
      if token.kind.isEof then
        (.nothing, ⟨reader, .finished⟩)
      else
        (.token token, ⟨reader, .running⟩)
  | _ => (.nothing, session)

/- Read a run of one class. -/
def readRun
    (session : Session)
    (p : Char → Bool) : Answer × Session :=
  let (run, reader) := session.reader.readRun p
  (.text (String.ofList run),
    { session with reader := reader })

/- Answer one call. -/
def step
    (session : Session) :
    Call → Answer × Session
  | .nextToken =>
      let (token, reader) := session.reader.nextToken
      (.token token, { session with reader := reader })
  | .readChar =>
      (.nothing,
        { session with reader := session.reader.readChar })
  | .peekChar =>
      (match session.reader.peekChar with
        | none => .nothing
        | some c => .char c, session)
  | .skipSpaces =>
      (.nothing,
        { session with
          reader := session.reader.skipSpaces })
  | .readWord => session.readRun Text.isLetter
  | .readNumber => session.readRun Text.isDigit
  | .newIterator =>
      (.nothing, { session with iterator := .running })
  | .stepIterator => session.stepIterator
  | .drain =>
      let (listed, reader) := session.reader.drain
      (.tokens listed, { session with reader := reader })

/-
  Answer the calls one after the other. Each answer comes
  with the session after it.
-/
def run
    (session : Session) :
    List Call → List (Answer × Session)
  | [] => []
  | call :: calls =>
      let reply := session.step call
      reply :: run reply.2 calls

end Session

end Scan

end LetLang

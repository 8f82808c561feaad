import LetLang.Level
import LetLang.Scan.Cursor

/-
  Token streams: the tokens that a parse still has before
  it.

  A stream is a row of places. Each holds a token, or is a
  gap. After the last listed place an endless stream goes on
  with end tokens forever, as a scanned source does; any
  other stream is dry and holds nothing more. Two places are
  visible, the current one and the one after it. A gap looks
  like the end of a dry stream, but can be passed.

  Key definitions include:
    * `TokenStream`
    * `TokenStream.ofTokens`
    * `TokenStream.ofPlaces`
    * `TokenStream.get?`
    * `TokenStream.current`
    * `TokenStream.peek`
    * `TokenStream.advance`
-/

namespace LetLang

/-
  The listed places still to come, whether end tokens follow
  them, and how many places have been passed.
-/
structure TokenStream where
  rest : List (Option Token)
  endless : Bool
  position : Nat
  deriving DecidableEq, Repr

namespace TokenStream

------------------------------------------------------------
-- Construction
------------------------------------------------------------

/- The stream of a list of places, dry at its end. -/
def ofPlaces
    (places : List (Option Token)) : TokenStream :=
  ⟨places, false, 0⟩

/- The stream of a list of tokens, without gaps. -/
def ofTokens
    (tokens : List Token) : TokenStream :=
  ofPlaces (tokens.map some)

/- The stream of what is ahead of a cursor. -/
def ofCursor
    (cursor : Scan.Cursor) : TokenStream :=
  ⟨(Scan.tokens cursor.ahead).map some, true, 0⟩

/- The stream of a source text. -/
def ofSource
    (source : String) : TokenStream :=
  ofCursor (Scan.Cursor.ofSource source)

------------------------------------------------------------
-- Looking and Moving
------------------------------------------------------------

/- What a stream holds after its listed places. -/
def beyond
    (stream : TokenStream) : Option Token :=
  if stream.endless then some Token.eof else none

/- The token that is a number of places ahead. -/
def get?
    (stream : TokenStream)
    (i : Nat) : Option Token :=
  stream.rest[i]?.getD stream.beyond

/- The next token to be consumed. -/
def current
    (stream : TokenStream) : Option Token :=
  match stream.rest with
  | [] => stream.beyond
  | place :: _ => place

/- The token after the current one. -/
def peek
    (stream : TokenStream) : Option Token :=
  match stream.rest with
  | [] => stream.beyond
  | [_] => stream.beyond
  | _ :: place :: _ => place

/- Pass the current place. -/
def advance
    (stream : TokenStream) : TokenStream :=
  { stream with
    rest := stream.rest.tail
    position := stream.position + 1 }

/- Whether the current token has a given kind. -/
def currentIs
    (stream : TokenStream)
    (kind : Token.Kind) : Bool :=
  stream.current.any (fun token => token.kind == kind)

/- Whether the token after it has a given kind. -/
def peekIs
    (stream : TokenStream)
    (kind : Token.Kind) : Bool :=
  stream.peek.any (fun token => token.kind == kind)

/-
  Whether the current token is an operator that binds more
  tightly than a level.
-/
def bindsAbove
    (stream : TokenStream)
    (floor : Level) : Bool :=
  stream.current.any
    (fun token => token.kind.bindsAbove floor)

------------------------------------------------------------
-- Laws
------------------------------------------------------------

theorem get?_zero
    (stream : TokenStream) :
    stream.get? 0 = stream.current := by
  cases h : stream.rest <;> simp [get?, current, h]

theorem get?_one
    (stream : TokenStream) :
    stream.get? 1 = stream.peek := by
  rcases h : stream.rest with _ | ⟨a, _ | ⟨b, rest⟩⟩ <;>
    simp [get?, peek, h]

theorem get?_advance
    (stream : TokenStream)
    (i : Nat) :
    stream.advance.get? i = stream.get? (i + 1) := by
  cases h : stream.rest <;>
    simp [get?, advance, beyond, h]

theorem current_advance
    (stream : TokenStream) :
    stream.advance.current = stream.peek := by
  rw [← get?_zero, get?_advance, get?_one]

theorem length_advance_le
    (stream : TokenStream) :
    stream.advance.rest.length ≤ stream.rest.length := by
  simp [advance]

/-
  A token other than the end token is listed, and passing it
  leaves fewer.
-/
theorem length_advance_lt
    {stream : TokenStream}
    {token : Token}
    (hCurrent : stream.current = some token)
    (hKind : token.kind ≠ .eof) :
    stream.advance.rest.length < stream.rest.length := by
  cases h : stream.rest with
  | nil =>
      simp only [current, h, beyond] at hCurrent
      split at hCurrent
      · cases hCurrent
        exact absurd rfl hKind
      · simp at hCurrent
  | cons head rest => simp [advance, h]

end TokenStream

end LetLang

import LetLang.Parse.Stream

/-
  Reading tokens off a stream.

  A stream reads a list of tokens if these are the places
  before the stream that is left. Nothing else about the
  stream changes but the count of places passed. So the
  stream that is left is known once the tokens are.

  Key definitions include:
    * `TokenStream.Reads`

  Main declarations:
    * `TokenStream.Reads.trans`
    * `TokenStream.Reads.eq_of_reads`
    * `TokenStream.reads_of_current`
-/

namespace LetLang

namespace TokenStream

/-
  Passing the given tokens, one after the other, leads from
  one stream to another.
-/
structure Reads
    (stream : TokenStream)
    (tokens : List Token)
    (after : TokenStream) : Prop where
  rest_eq : stream.rest = tokens.map some ++ after.rest
  endless_eq : after.endless = stream.endless
  position_eq :
    after.position = stream.position + tokens.length

theorem eq_of_map_some
    {tokens others : List Token}
    (h : tokens.map some = others.map some) :
    tokens = others :=
  (List.map_inj_right
    (fun _ _ hSame => Option.some.inj hSame)).mp h

namespace Reads

theorem refl
    (stream : TokenStream) :
    stream.Reads [] stream :=
  ⟨rfl, rfl, rfl⟩

/- Reading on after reading. -/
theorem trans
    {stream middle after : TokenStream}
    {tokens later : List Token}
    (hFirst : stream.Reads tokens middle)
    (hLater : middle.Reads later after) :
    stream.Reads (tokens ++ later) after := by
  constructor
  · rw [hFirst.rest_eq, hLater.rest_eq, List.map_append,
      List.append_assoc]
  · rw [hLater.endless_eq, hFirst.endless_eq]
  · rw [hLater.position_eq, hFirst.position_eq,
      List.length_append, Nat.add_assoc]

/- What is read in one go is read in two. -/
theorem exists_middle
    {stream after : TokenStream}
    {tokens later : List Token}
    (h : stream.Reads (tokens ++ later) after) :
    ∃ middle,
      stream.Reads tokens middle ∧
        middle.Reads later after := by
  refine
    ⟨⟨later.map some ++ after.rest, stream.endless,
      stream.position + tokens.length⟩, ?_, ?_⟩
  · constructor
    · rw [h.rest_eq, List.map_append, List.append_assoc]
    · rfl
    · rfl
  · constructor
    · rfl
    · exact h.endless_eq
    · rw [h.position_eq, List.length_append,
        Nat.add_assoc]

theorem current_eq
    {stream after : TokenStream}
    {token : Token}
    {tokens : List Token}
    (h : stream.Reads (token :: tokens) after) :
    stream.current = some token := by
  simp [current, h.rest_eq]

theorem current_eq_of_head?
    {stream after : TokenStream}
    {token : Token}
    {tokens : List Token}
    (h : stream.Reads tokens after)
    (hHead : tokens.head? = some token) :
    stream.current = some token := by
  cases tokens with
  | nil => cases hHead
  | cons first tokens =>
      cases hHead
      exact h.current_eq

theorem advance
    {stream after : TokenStream}
    {token : Token}
    {tokens : List Token}
    (h : stream.Reads (token :: tokens) after) :
    stream.advance.Reads tokens after := by
  constructor
  · simp [TokenStream.advance, h.rest_eq]
  · exact h.endless_eq
  · rw [h.position_eq, List.length_cons]
    simp only [TokenStream.advance]
    omega

/- The tokens that are read decide what is left. -/
theorem eq_of_reads
    {stream after other : TokenStream}
    {tokens : List Token}
    (h : stream.Reads tokens after)
    (hOther : stream.Reads tokens other) :
    after = other := by
  have hRest : after.rest = other.rest := by
    have hBoth := h.rest_eq
    rw [hOther.rest_eq] at hBoth
    exact (List.append_cancel_left hBoth).symm
  have hEndless : after.endless = other.endless := by
    rw [h.endless_eq, hOther.endless_eq]
  have hPosition : after.position = other.position := by
    rw [h.position_eq, hOther.position_eq]
  cases after
  cases other
  simp_all

theorem cons
    {stream after : TokenStream}
    {token : Token}
    {tokens : List Token}
    (hFirst : stream.Reads [token] stream.advance)
    (hLater : stream.advance.Reads tokens after) :
    stream.Reads (token :: tokens) after :=
  hFirst.trans hLater

end Reads

/-
  A current token other than the end token is listed, so
  passing it reads it.
-/
theorem reads_of_current
    {stream : TokenStream}
    {token : Token}
    (hCurrent : stream.current = some token)
    (hKind : token.kind ≠ .eof) :
    stream.Reads [token] stream.advance := by
  cases hRest : stream.rest with
  | nil =>
      simp only [current, hRest, beyond] at hCurrent
      split at hCurrent
      · cases hCurrent
        exact absurd rfl hKind
      · cases hCurrent
  | cons place rest =>
      simp only [current, hRest] at hCurrent
      subst hCurrent
      constructor
      · simp [advance, hRest]
      · rfl
      · rfl

theorem reads_of_kind
    {stream : TokenStream}
    {token : Token}
    {kind : Token.Kind}
    (hCurrent : stream.current = some token)
    (hKind : token.kind = kind)
    (hEnd : kind.isEof = false) :
    stream.Reads [token] stream.advance := by
  apply reads_of_current hCurrent
  intro hEof
  rw [← hKind, hEof] at hEnd
  cases hEnd

end TokenStream

end LetLang

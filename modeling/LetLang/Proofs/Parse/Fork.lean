import LetLang.Proofs.Parse.Consumption
import LetLang.Proofs.Parse.ParallelStatement

/-
  Forks: two streams with the same tokens up to a mark, where
  they part.

  The same tokens are no marks, so the fork is the only place
  before which a statement can end. The two streams are
  parallel, and their marks are their stops: an expression
  that reaches the fork ends there, or the mark stands where
  an operand is needed and is passed as what failed.

  Key definitions include:
    * `TokenStream.Fork`
    * `TokenStream.Fork.Before`
    * `TokenStream.Fork.Behind`
    * `TokenStream.Fork.Stops`

  Main declarations:
    * `Parse.fork_statement`
-/

------------------------------------------------------------
-- Streams that Part
------------------------------------------------------------

namespace LetLang

/-
  How two streams go on from the place where they part: a
  mark and what is behind it. The place is counted in the
  first stream.
-/
structure TokenStream.Fork where
  place : Nat
  mark : Token
  tail : List (Option Token)
  otherMark : Token
  otherTail : List (Option Token)
  isMark : mark.kind.isMark = true
  otherIsMark : otherMark.kind.isMark = true

namespace TokenStream.Fork

/- Both streams are before the fork, with the same tokens. -/
structure Before
    (fork : Fork)
    (shared : List Token)
    (stream other : TokenStream) : Prop where
  rest_eq :
    stream.rest =
      shared.map some ++ some fork.mark :: fork.tail
  other_eq :
    other.rest =
      shared.map some
        ++ some fork.otherMark :: fork.otherTail
  position_eq :
    stream.position + shared.length = fork.place
  isMark_eq_false :
    ∀ token ∈ shared, token.kind.isMark = false

/- Both streams are right behind their marks. -/
structure Behind
    (fork : Fork)
    (stream other : TokenStream) : Prop where
  rest_eq : stream.rest = fork.tail
  other_eq : other.rest = fork.otherTail
  position_eq : stream.position = fork.place + 1

/- Both streams are before the fork, or both behind it. -/
def Together
    (fork : Fork)
    (stream other : TokenStream) : Prop :=
  (∃ shared, fork.Before shared stream other) ∨
    fork.Behind stream other

namespace Before

variable
  {fork : Fork}
  {shared : List Token}
  {stream other : TokenStream}
  {token : Token}

theorem current_cons
    (hBefore : fork.Before (token :: shared) stream other) :
    stream.current = some token ∧
      other.current = some token := by
  constructor
  · simp [current, hBefore.rest_eq]
  · simp [current, hBefore.other_eq]

theorem current_nil
    (hBefore : fork.Before [] stream other) :
    stream.current = some fork.mark ∧
      other.current = some fork.otherMark := by
  constructor
  · simp [current, hBefore.rest_eq]
  · simp [current, hBefore.other_eq]

/- Passing a token leaves the others before the fork. -/
theorem advance
    (hBefore : fork.Before (token :: shared) stream other) :
    fork.Before shared stream.advance other.advance := by
  constructor
  · simp [TokenStream.advance, hBefore.rest_eq]
  · simp [TokenStream.advance, hBefore.other_eq]
  · have hPosition := hBefore.position_eq
    rw [List.length_cons] at hPosition
    simp only [TokenStream.advance]
    omega
  · intro next hMem
    exact hBefore.isMark_eq_false next
      (List.mem_cons_of_mem _ hMem)

theorem advance_nil
    (hBefore : fork.Before [] stream other) :
    fork.Behind stream.advance other.advance := by
  constructor
  · simp [TokenStream.advance, hBefore.rest_eq]
  · simp [TokenStream.advance, hBefore.other_eq]
  · have hPosition := hBefore.position_eq
    rw [List.length_nil] at hPosition
    simp only [TokenStream.advance]
    omega

end Before

------------------------------------------------------------
-- Stops
------------------------------------------------------------

/- Two streams stop at the marks of a fork. -/
structure Stops
    (fork : Fork)
    (stop otherStop : TokenStream) : Prop where
  rest_eq : stop.rest = some fork.mark :: fork.tail
  other_eq :
    otherStop.rest = some fork.otherMark :: fork.otherTail
  position_eq : stop.position = fork.place

/- Streams before a fork are parallel up to its marks. -/
theorem Before.exists_stops
    {fork : Fork}
    {shared : List Token}
    {stream other : TokenStream}
    (hBefore : fork.Before shared stream other) :
    ∃ stop otherStop,
      fork.Stops stop otherStop ∧
        Parallel stop otherStop shared stream other := by
  refine
    ⟨⟨some fork.mark :: fork.tail, stream.endless,
        fork.place⟩,
      ⟨some fork.otherMark :: fork.otherTail, other.endless,
        other.position + shared.length⟩,
      ⟨rfl, rfl, rfl⟩, ⟨?_, ?_⟩⟩
  · exact
      ⟨hBefore.rest_eq, rfl, hBefore.position_eq.symm⟩
  · exact ⟨hBefore.other_eq, rfl, rfl⟩

namespace Stops

variable
  {fork : Fork}
  {stop otherStop : TokenStream}

theorem current_eq
    (hStops : fork.Stops stop otherStop) :
    stop.current = some fork.mark := by
  simp [current, hStops.rest_eq]

theorem other_current_eq
    (hStops : fork.Stops stop otherStop) :
    otherStop.current = some fork.otherMark := by
  simp [current, hStops.other_eq]

theorem isStop
    (hStops : fork.Stops stop otherStop) :
    stop.IsStop ∧ otherStop.IsStop :=
  ⟨.of_current hStops.current_eq fork.isMark,
    .of_current hStops.other_current_eq fork.otherIsMark⟩

theorem behind
    (hStops : fork.Stops stop otherStop) :
    fork.Behind stop.past otherStop.past := by
  unfold past
  rw [hStops.current_eq, hStops.other_current_eq]
  constructor
  · simp [TokenStream.advance, hStops.rest_eq]
  · simp [TokenStream.advance, hStops.other_eq]
  · simp [TokenStream.advance, hStops.position_eq]

/-
  Streams that are still parallel are still before the fork,
  if they were before it: what is between has no mark.
-/
theorem before
    {stream other after otherAfter : TokenStream}
    {shared left : List Token}
    (hStops : fork.Stops stop otherStop)
    (hBefore : fork.Before shared stream other)
    (hParallel :
      Parallel stop otherStop shared stream other)
    (hAfter :
      Parallel stop otherStop left after otherAfter)
    (hRest : after.rest <:+ stream.rest) :
    fork.Before left after otherAfter := by
  constructor
  · rw [hAfter.reads.rest_eq, hStops.rest_eq]
  · rw [hAfter.otherReads.rest_eq, hStops.other_eq]
  · rw [← hAfter.reads.position_eq, hStops.position_eq]
  · intro token hMem
    exact hBefore.isMark_eq_false token
      ((hParallel.suffix hAfter hRest).subset hMem)

/- So streams that stay together do so at the fork. -/
theorem together
    {stream other after otherAfter : TokenStream}
    {shared : List Token}
    (hStops : fork.Stops stop otherStop)
    (hBefore : fork.Before shared stream other)
    (hParallel :
      Parallel stop otherStop shared stream other)
    (hTogether :
      TokenStream.Together stop otherStop after otherAfter)
    (hRest : after.rest <:+ stream.rest) :
    fork.Together after otherAfter := by
  rcases hTogether with ⟨left, hAfter⟩ | ⟨rfl, rfl⟩
  · exact
      Or.inl
        ⟨left,
          hStops.before hBefore hParallel hAfter hRest⟩
  · exact Or.inr hStops.behind

end Stops

end TokenStream.Fork

namespace Parse

------------------------------------------------------------
-- Statements
------------------------------------------------------------

/-
  A failed statement fails on both streams, and they stay
  together.
-/
theorem fork_statement
    {fork : TokenStream.Fork}
    {shared : List Token}
    {state other after : State}
    {raised : Diagnostic}
    (hBefore :
      fork.Before shared state.stream other.stream)
    (h : statement state = (.failed raised, after)) :
    ∃ otherRaised otherAfter,
      statement other = (.failed otherRaised, otherAfter) ∧
        fork.Together after.stream otherAfter.stream := by
  rcases hBefore.exists_stops with
    ⟨stop, otherStop, hStops, hParallel⟩
  rcases parallel_of_failed hStops.isStop.1
      hStops.isStop.2 hParallel h with
    ⟨otherRaised, otherAfter, hOther, hTogether, -⟩
  have hRest := suffix_statement state
  rw [h] at hRest
  exact
    ⟨otherRaised, otherAfter, hOther,
      hStops.together hBefore hParallel hTogether hRest⟩

end Parse

end LetLang

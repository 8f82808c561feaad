import LetLang.Proofs.Parse.Progress
import LetLang.Proofs.Parse.Sources

/-
  A window of two slots over a feed of tokens.

  A parse holds two tokens, the current one and the one
  after it. They stand in slots; when the slots are shifted,
  the feed behind them is pulled for one more token. A row
  of places that has run out gives nothing, however often it
  is pulled, and a cursor reads on for ever.

  That the slots hold neighbours is no part of what they
  are. It is so in a window that has been opened, and every
  shift keeps it, so it holds after any number of shifts by
  induction. A stream is all that a window shows and will
  show; to shift the slots is to advance it.

  Key definitions include:
    * `Feed.pull`
    * `Window.shift`
    * `Window.ofFeed`
    * `Window.ShowsFrom`
    * `Window.Shows`

  Main declarations:
    * `Window.ShowsFrom.shifts`
    * `Window.Shows.shifts`
-/

namespace LetLang

------------------------------------------------------------
-- Feeds
------------------------------------------------------------

/- What tokens are pulled from. -/
inductive Feed where
  | ofPlaces (left : List (Option Token))
  | ofCursor (cursor : Scan.Cursor)
  deriving DecidableEq, Repr

namespace Feed

/- Pull once: a token, if there is one, and what is left. -/
def pull : Feed → Option Token × Feed
  | .ofPlaces [] => (none, .ofPlaces [])
  | .ofPlaces (place :: left) => (place, .ofPlaces left)
  | .ofCursor cursor =>
      (some cursor.next.1, .ofCursor cursor.next.2)

/- What is pulled after a number of pulls. -/
def get?
    (feed : Feed) : Nat → Option Token
  | 0 => feed.pull.1
  | i + 1 => feed.pull.2.get? i

theorem get?_ofPlaces
    (left : List (Option Token))
    (i : Nat) :
    (Feed.ofPlaces left).get? i = left[i]?.getD none := by
  induction i generalizing left with
  | zero => cases left <;> rfl
  | succ i ih =>
      cases left with
      | nil => exact ih []
      | cons place left => exact ih left

theorem get?_ofCursor
    (cursor : Scan.Cursor)
    (i : Nat) :
    (Feed.ofCursor cursor).get? i =
      some (cursor.skip i).next.1 := by
  induction i generalizing cursor with
  | zero => rfl
  | succ i ih => exact ih cursor.next.2

end Feed

------------------------------------------------------------
-- Windows
------------------------------------------------------------

/- Two slots and the feed behind them. -/
structure Window where
  current : Option Token
  peek : Option Token
  feed : Feed
  deriving DecidableEq, Repr

namespace Window

/- Shift the slots by one, with a fresh token in the last. -/
def shift
    (window : Window) : Window :=
  let (pulled, feed) := window.feed.pull
  ⟨window.peek, pulled, feed⟩

/- Shift the slots a number of times. -/
def shifts
    (window : Window) : Nat → Window
  | 0 => window
  | n + 1 => window.shift.shifts n

/- A window is opened empty and shifted until it is full. -/
def ofFeed
    (feed : Feed) : Window :=
  (Window.mk none none feed).shift.shift

------------------------------------------------------------
-- The Source Behind a Window
------------------------------------------------------------

/-
  The slots hold a place of a source and the one behind it,
  and the feed goes on where they end.
-/
structure ShowsFrom
    (window : Window)
    (source : Nat → Option Token)
    (i : Nat) : Prop where
  current_eq : window.current = source i
  peek_eq : window.peek = source (i + 1)
  feed_eq : ∀ k, window.feed.get? k = source (i + 2 + k)

/- An opened window shows its feed from the start. -/
theorem showsFrom_ofFeed
    {feed : Feed}
    {source : Nat → Option Token}
    (hFeed : ∀ i, feed.get? i = source i) :
    (ofFeed feed).ShowsFrom source 0 := by
  refine ⟨hFeed 0, hFeed 1, ?_⟩
  intro k
  have hBehind := hFeed (k + 2)
  rw [Nat.zero_add, Nat.add_comm]
  exact hBehind

namespace ShowsFrom

variable
  {window : Window}
  {source : Nat → Option Token}
  {i : Nat}

/- After a shift the slots hold neighbours, one place on. -/
theorem shift
    (h : window.ShowsFrom source i) :
    window.shift.ShowsFrom source (i + 1) := by
  refine ⟨h.peek_eq, h.feed_eq 0, ?_⟩
  intro k
  have hFeed := h.feed_eq (k + 1)
  rw [show i + 2 + (k + 1) = i + 1 + 2 + k by omega] at hFeed
  exact hFeed

theorem shifts
    (h : window.ShowsFrom source i)
    (n : Nat) :
    (window.shifts n).ShowsFrom source (i + n) := by
  induction n generalizing window i with
  | zero => exact h
  | succ n ih =>
      have hLater := ih h.shift
      rw [Nat.add_right_comm] at hLater
      exact hLater

end ShowsFrom

------------------------------------------------------------
-- The Stream of a Window
------------------------------------------------------------

/- All that a window shows, and will show, is a stream. -/
structure Shows
    (window : Window)
    (stream : TokenStream) : Prop where
  current_eq : window.current = stream.current
  peek_eq : window.peek = stream.peek
  feed_eq : ∀ k, window.feed.get? k = stream.get? (k + 2)

/- A window shows a stream of which it shows the places. -/
theorem shows_of_showsFrom
    {window : Window}
    {stream : TokenStream}
    (h : window.ShowsFrom stream.get? 0) :
    window.Shows stream := by
  refine ⟨?_, ?_, ?_⟩
  · rw [h.current_eq, stream.get?_zero]
  · rw [h.peek_eq, Nat.zero_add, stream.get?_one]
  · intro k
    rw [h.feed_eq k, Nat.zero_add, Nat.add_comm]

/- A row of places is what a window over it shows. -/
theorem shows_ofPlaces
    (places : List (Option Token)) :
    (ofFeed (.ofPlaces places)).Shows
      (TokenStream.ofPlaces places) :=
  shows_of_showsFrom
    (showsFrom_ofFeed (Feed.get?_ofPlaces places))

/- So is what a cursor reads. -/
theorem shows_ofCursor
    (cursor : Scan.Cursor) :
    (ofFeed (.ofCursor cursor)).Shows
      (TokenStream.ofCursor cursor) := by
  apply shows_of_showsFrom
  apply showsFrom_ofFeed
  intro i
  rw [Feed.get?_ofCursor, cursor.get?_ofCursor]

namespace Shows

variable
  {window : Window}
  {stream : TokenStream}

/- To shift the slots is to advance the stream. -/
theorem shift
    (h : window.Shows stream) :
    window.shift.Shows stream.advance := by
  refine ⟨?_, ?_, ?_⟩
  · rw [stream.current_advance]
    exact h.peek_eq
  · rw [← TokenStream.get?_one, TokenStream.get?_advance]
    exact h.feed_eq 0
  · intro k
    rw [TokenStream.get?_advance]
    exact h.feed_eq (k + 1)

theorem shifts
    (h : window.Shows stream)
    (n : Nat) :
    (window.shifts n).Shows (stream.skip n) := by
  induction n generalizing window stream with
  | zero => exact h
  | succ n ih =>
      have hLater := ih h.shift
      rw [← TokenStream.skip_succ] at hLater
      exact hLater

end Shows

end Window

end LetLang

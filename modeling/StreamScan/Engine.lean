import StreamScan.Matcher
import StreamScan.Cursor
import StreamScan.Engine.Excerpt

/-!
# Engines — the next match in a stream of code points

An engine finds the next match by reading code points, one at a time.  It answers with offsets
that count from where it began to read; that is all a scan knows of it, so anything that answers
in this way can drive one.

The engine of this module asks a matcher.  It holds an excerpt of the text and reads on in short
steps.  After each it looks for the first place that is still open: one where a longer text may
have a match.  Places before that are dropped.  A match is reported once no earlier place is open
and a full window of text has been read past its start, so that nothing that comes later can
change it.  A place that stays open for two windows is refused.

* **`MatchEngine`** — whatever finds the next match.
* **`Engine`** — a matcher with a window, and what follows from the window.
* **`Engine.judge`** — what an excerpt allows to say before the end of the text.
* **`Engine.findNext`** — the search, for readers that come to an end.
-/

namespace StreamScan

/-- Where a match lies, in bytes from where its search began.  An engine may name any two
    offsets; whoever copies the match checks them. -/
structure Location where
  start : Int
  stop : Int
deriving DecidableEq, Repr

/-- A stretch as a location. -/
def Span.location (s : Span) : Location := ⟨s.start, s.stop⟩

/-- Whatever finds the next match by reading code points. -/
class MatchEngine (ε ρ : Type) where
  find : ε → ρ → Except Failure (Option Location) × ε × ρ

/-- A matcher with the length up to which its matches are exact. -/
structure Engine where
  matcher : Matcher
  window : Nat

namespace Engine

/-- An engine with a window of the given size, if that is not too small. -/
def ofMatcher (matcher : Matcher) (window : Int) : Engine :=
  ⟨matcher, max window.toNat Cursor.minCapacity⟩

/-- How many code points are read at most before the text is looked at again. -/
def step (e : Engine) : Nat := max 1 (e.window / 64)

/-- How many bytes behind the frontier a place may be open. -/
def limit (e : Engine) : Nat := 2 * e.window

/-- How many code points to read next.  While the oldest open place is younger than a window, so
    few that it stays in the bytes that a cursor of this window holds. -/
def pullCount (e : Engine) (x : Excerpt) : Nat :=
  let room := e.window - x.age x.keep
  if room = 0 then e.step else max 1 (min e.step (room / Utf8.maxLength))

/-- The first of so many places from `place` on at which a longer text may have a match, and the
    place after them if there is none. -/
def firstOpen (m : Matcher) (text : Array Char) : Nat → Nat → Nat
  | 0, place => place
  | places + 1, place =>
    if (m.attempt text place).isOpen then place else firstOpen m text places (place + 1)

/-- What can be said of an excerpt before the end of the text. -/
inductive Verdict where
  /-- Nothing that follows can change this match. -/
  | found (location : Span)
  /-- A place has been open for too long. -/
  | refused (failure : Failure)
  /-- More text is needed; this much of the excerpt is needed as well. -/
  | undecided (rest : Excerpt)
deriving DecidableEq, Repr

/-- Judges an excerpt before the end of the text. -/
def judge (e : Engine) (x : Excerpt) : Verdict :=
  let found := e.matcher.search x.chars x.keep
  let candidate := found.elim x.chars.size (·.start)
  let oldest := firstOpen e.matcher x.chars (candidate - x.keep) x.keep
  if oldest < x.chars.size && e.limit < x.age oldest then
    .refused (.attemptStillOpen (x.offset oldest) (x.age oldest) e.limit)
  else
    match found with
    | some span =>
      if oldest = candidate && span.stop < x.chars.size && e.window ≤ x.age span.start then
        .found (x.located span)
      else .undecided (x.discard oldest)
    | none => .undecided (x.discard oldest)

/-- The match in an excerpt that holds the rest of the text. -/
def conclude (e : Engine) (x : Excerpt) : Option Span :=
  (e.matcher.search x.chars x.keep).map x.located

theorem pullCount_pos (e : Engine) (x : Excerpt) : 1 ≤ e.pullCount x := by
  unfold pullCount step
  simp only
  split <;> omega

variable {ρ : Type} [FiniteReader ρ]

/-- Reads on and judges until there is an answer.  Each turn uses up a code point, or else comes
    to the end. -/
def findFrom (e : Engine) (x : Excerpt) (r : ρ) : Except Failure (Option Span) × ρ :=
  match _h : x.pull (e.pullCount x) r with
  | (.error failure, _, r') => (.error failure, r')
  | (.ok true, x', r') => (.ok (e.conclude x'), r')
  | (.ok false, x', r') =>
    match e.judge x' with
    | .found location => (.ok (some location), r')
    | .refused failure => (.error failure, r')
    | .undecided rest => e.findFrom rest r'
termination_by FiniteReader.remaining r
decreasing_by
  have := Excerpt.pull_remaining _h
  have := e.pullCount_pos x
  omega

/-- The next match, from the present place of a reader on. -/
def findNext (e : Engine) (r : ρ) : Except Failure (Option Span) × ρ :=
  e.findFrom .empty r

instance : MatchEngine Engine ρ where
  find e r :=
    let (answer, r) := e.findNext r
    (answer.map (·.map Span.location), e, r)

end Engine

end StreamScan

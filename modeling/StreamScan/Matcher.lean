/-!
# Matchers — what a scan needs to know of a pattern

A scan over a stream asks a pattern two questions about the text it holds so far: where is the
first match from a given place on, and what comes of an attempt to match at one place?  An attempt
can also be *unfinished*: it failed on this text, but only because the text ended there, and more
text may make it a match.

* **`Attempt`** — what comes of an attempt at one place.
* **`Matcher`** — the two questions.
-/

namespace StreamScan

/-- A stretch, by the place of its first member and the place after its last. -/
structure Span where
  start : Nat
  stop : Nat
deriving DecidableEq, Repr

/-- What comes of an attempt to match at one place of a text. -/
inductive Attempt where
  | failed
  | unfinished
  | matched (stop : Nat)
deriving DecidableEq, Repr

/-- Whether a longer text may still have a match at this place. -/
def Attempt.isOpen : Attempt → Bool
  | failed => false
  | _ => true

/-- What a scan needs to know of a pattern. -/
structure Matcher where
  /-- The first match that starts at an index or after it. -/
  search : Array Char → Nat → Option Span
  /-- The attempt at an index. -/
  attempt : Array Char → Nat → Attempt

end StreamScan

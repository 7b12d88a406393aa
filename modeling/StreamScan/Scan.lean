import StreamScan.Engine
import StreamScan.Cursor.Finite

/-!
# Scans — every match in a source

A scan asks its engine for the next match, copies the bytes of the match out of its cursor, hands
them to a receiver and goes on right after the match.  After an empty match it steps over one
code point first, since it would find the same match again.

A receiver may fail, and it may act on the source while it holds the scan up.  A pass can be
stopped after a number of matches; the scan can then be taken up again where it is, and so it can
after a failure.

* **`Scan.advance`** — find the next match and copy it.
* **`Scan.run`** — a pass of at most so many matches.
* **`Scan.pass`** — a pass to the end.  With a bound on the matches there can be, it is the same
  as `run`: each match that is not empty ends later than the one before, and after an empty one a
  code point is read.
* **`Scan.findAll`** — the texts of all matches.
-/

namespace StreamScan

/-- An engine and the cursor it reads from. -/
structure Scan (ε σ : Type) where
  engine : ε
  cursor : Cursor σ

/-- How a pass ended. -/
inductive Ending where
  /-- There is nothing more to find. -/
  | finished
  /-- The number of matches that was asked for has been delivered. -/
  | stopped
  | failed (failure : Failure)
deriving DecidableEq, Repr

/-- A receiver of matches, with a state.  It sees the cursor, and may change the source. -/
abbrev Receiver (α σ : Type) := α → Match → Cursor σ → Except Failure Unit × α × σ

/-- A failure of the scan together with the texts that were found before it. -/
structure Aborted where
  failure : Failure
  found : List String
deriving DecidableEq, Repr

/-- The receiver that collects the texts of matches, the last one first. -/
def collectTexts {σ : Type} : Receiver (List String) σ := fun texts m c =>
  (.ok (), m.text :: texts, c.source)

namespace Scan

variable {ε σ : Type}

/-- A scan of a source with a window of the given size. -/
def ofSource (engine : ε) (source : σ) (size : Int) : Scan ε σ :=
  ⟨engine, .ofSource source size⟩

/-- A scan with an engine whose window is that of the cursor. -/
def ofMatcher (matcher : Matcher) (source : σ) (size : Int) : Scan Engine σ :=
  let cursor := Cursor.ofSource source size
  ⟨.ofMatcher matcher cursor.capacity, cursor⟩

/-- A match that was delivered, and whether the engine found it empty. -/
structure Delivery where
  found : Match
  isEmpty : Bool

variable [ByteSource σ] [MatchEngine ε (Cursor σ)]

/-- Finds the next match and copies it. -/
def advance (s : Scan ε σ) : Except Failure (Option Delivery) × Scan ε σ :=
  match MatchEngine.find s.engine s.cursor with
  | (.error failure, engine, cursor) => (.error failure, ⟨engine, cursor⟩)
  | (.ok none, engine, cursor) => (.ok none, ⟨engine, cursor⟩)
  | (.ok (some location), engine, cursor) =>
    match cursor.extract location.start (location.stop - location.start) with
    | (.error failure, cursor) => (.error failure, ⟨engine, cursor⟩)
    | (.ok found, cursor) =>
      (.ok (some ⟨found, location.start = location.stop⟩), ⟨engine, cursor⟩)

/-- Steps over one code point after an empty match; false at the end of the stream. -/
def stepPast (s : Scan ε σ) (d : Delivery) : Except Failure Bool × Scan ε σ :=
  if d.isEmpty then
    let (moved, cursor) := s.cursor.skip
    (moved, { s with cursor })
  else (.ok true, s)

/-- A pass of at most so many matches.  When it has delivered the last of them, it does not move
    any more. -/
def run {α : Type} (receive : Receiver α σ) : Nat → α → Scan ε σ → Ending × α × Scan ε σ
  | 0, a, s => (.stopped, a, s)
  | count + 1, a, s =>
    match s.advance with
    | (.error failure, s) => (.failed failure, a, s)
    | (.ok none, s) => (.finished, a, s)
    | (.ok (some d), s) =>
      match receive a d.found s.cursor with
      | (.error failure, a, source) =>
        (.failed failure, a, { s with cursor := { s.cursor with source } })
      | (.ok (), a, source) =>
        let s := { s with cursor := { s.cursor with source } }
        if count = 0 then (.stopped, a, s)
        else
          match s.stepPast d with
          | (.error failure, s) => (.failed failure, a, s)
          | (.ok false, s) => (.finished, a, s)
          | (.ok true, s) => run receive count a s

end Scan

namespace Scan

variable {ε σ : Type} [FiniteSource σ] [MatchEngine ε (Cursor σ)]

/-- More matches than a pass can deliver. -/
def bound (s : Scan ε σ) : Nat :=
  s.cursor.sourceTotal + FiniteSource.remaining s.cursor.source + 2

/-- A pass to the end. -/
def pass {α : Type} (receive : Receiver α σ) (a : α) (s : Scan ε σ) : Ending × α × Scan ε σ :=
  s.run receive s.bound a

/-- The texts of all matches.  If the scan fails, the texts found so far go with the failure; any
    other failure stands alone. -/
def findAll (s : Scan ε σ) : Except Aborted (List String) × Scan ε σ :=
  match s.pass collectTexts [] with
  | (.failed failure, texts, s) =>
    (.error ⟨failure, if failure.kind.isScan then texts.reverse else []⟩, s)
  | (_, texts, s) => (.ok texts.reverse, s)

end Scan

end StreamScan

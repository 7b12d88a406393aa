import StreamScan.Matcher
import StreamScan.Reader

/-!
# Excerpts — the decoded text that a search holds

A search does not hold all the text it has read, only an excerpt of it: the characters that may
still be part of a match and a few before them.  With each character goes its offset, counted in
bytes from where the search began, so that places in the excerpt can be reported as places in
the stream.

* **`Excerpt.pull`** — read more code points from a reader.
* **`Excerpt.discard`** — drop what no match can begin with, except for a little context.
* **`pull_remaining`** — reading uses up the reader.
-/

namespace StreamScan

/-- A stretch of decoded text with the offset of each character, and the offset just after the
    last one.  Places before `keep` can no longer begin a match. -/
structure Excerpt where
  chars : Array Char
  offsets : Array Nat
  keep : Nat
deriving DecidableEq, Repr

namespace Excerpt

/-- How many characters stay before the oldest place that may begin a match, so that conditions
    on what precedes it can still be decided. -/
def context : Nat := 8

/-- The excerpt before anything is read. -/
def empty : Excerpt := ⟨#[], #[0], 0⟩

/-- The offset of a place. -/
def offset (x : Excerpt) (place : Nat) : Nat := x.offsets.getD place 0

/-- The offset just after the last character. -/
def frontier (x : Excerpt) : Nat := x.offset (x.offsets.size - 1)

/-- How many bytes have been read from a place on. -/
def age (x : Excerpt) (place : Nat) : Nat := x.frontier - x.offset place

/-- The excerpt with one more code point. -/
def push (x : Excerpt) (c : Codepoint) : Excerpt :=
  { x with chars := x.chars.push c.char, offsets := x.offsets.push (x.frontier + c.size) }

/-- Reads up to so many code points, and tells whether the reader came to its end. -/
def pull {ρ : Type} [CodepointReader ρ] : Nat → Excerpt → ρ →
    Except Failure Bool × Excerpt × ρ
  | 0, x, r => (.ok false, x, r)
  | count + 1, x, r =>
    match CodepointReader.next r with
    | (.error failure, r) => (.error failure, x, r)
    | (.ok none, r) => (.ok true, x, r)
    | (.ok (some c), r) => pull count (x.push c) r

/-- Drops the characters before a place, except for the context.  Places before it can no longer
    begin a match. -/
def discard (x : Excerpt) (place : Nat) : Excerpt :=
  let cut := place - context
  { chars := x.chars.extract cut, offsets := x.offsets.extract cut, keep := place - cut }

/-- A match in the excerpt, by its offsets. -/
def located (x : Excerpt) (found : Span) : Span := ⟨x.offset found.start, x.offset found.stop⟩

/-- Code points that were read without coming to the end have been used up. -/
theorem pull_remaining {ρ : Type} [FiniteReader ρ] {count : Nat} {x x' : Excerpt} {r r' : ρ}
    (h : x.pull count r = (.ok false, x', r')) :
    FiniteReader.remaining r' + count ≤ FiniteReader.remaining r := by
  induction count generalizing x r with
  | zero =>
    obtain ⟨-, rfl⟩ : x = x' ∧ r = r' := by simpa [pull] using h
    exact Nat.le_refl _
  | succ count ih =>
    unfold pull at h
    split at h
    · simp at h
    · simp at h
    · rename_i c r₁ hnext
      have hless := FiniteReader.remaining_next hnext
      have hrest := ih h
      omega

end Excerpt

end StreamScan

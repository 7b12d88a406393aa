import StreamScan.Failure
import StreamScan.Bytes

/-!
# Sources — where the bytes of a scan come from

A source is a state that can be read.  A read offers room for a number of bytes and is answered
by a `Reply`: a count with the bytes that were written, *not yet* (nothing has arrived, but the
source has not ended), or a failure.  A count of zero ends the source.  Nothing forces a source
to be sensible: the count it reports may even be negative, and what it wrote need not fit.

Some sources can also be read at an offset, without moving the position of the other reads.

* **`ByteSource`** — a state with a read, and perhaps a positional read.
* **`FiniteSource`** — a source that can hand out only so many bytes more.  This is what lets a
  search through a source end.
-/

namespace StreamScan

/-- What a source answers to a read. -/
inductive Reply where
  /-- So many bytes were written, as the source reports it, and these are the bytes. -/
  | count (reported : Int) (written : Bytes)
  /-- Nothing has arrived yet. -/
  | notYet
  /-- The read failed. -/
  | failed (failure : Failure)
deriving DecidableEq, Repr

namespace Reply

/-- A reply that reports exactly the bytes it wrote. -/
def ofBytes (bytes : Bytes) : Reply := .count bytes.length bytes

/-- The number of bytes that a reply reports, none if it is negative. -/
def size : Reply → Nat
  | count reported _ => reported.toNat
  | _ => 0

theorem size_ofBytes (bytes : Bytes) : (ofBytes bytes).size = bytes.length := by
  simp [ofBytes, size]

end Reply

/-- A positional read: an offset and a size are answered by bytes or a failure. -/
abbrev PositionalRead (σ : Type) := Int → Int → Except Failure Bytes × σ

/-- A state that can be read. -/
class ByteSource (σ : Type) where
  /-- Reads into room for so many bytes. -/
  read : σ → Nat → Reply × σ
  /-- The positional read, if the source has one. -/
  readAt? : σ → Option (PositionalRead σ) := fun _ => none

/-- A source that can hand out only so many bytes more. -/
class FiniteSource (σ : Type) extends ByteSource σ where
  /-- How many bytes the source can still report. -/
  remaining : σ → Nat
  remaining_read : ∀ (s : σ) (room : Nat),
    remaining (ByteSource.read s room).2 + (ByteSource.read s room).1.size ≤ remaining s

end StreamScan

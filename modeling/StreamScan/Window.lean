import StreamScan.Bytes

/-!
# Window — the newest bytes of a stream, in two blocks

A window holds two blocks of one size, its capacity.  `current` holds the bytes pulled from the
source most recently; whoever uses the window keeps a read and a write position inside it.
`previous` holds the bytes that come just before the first of `current` in the stream.  Neither
block grows.  Compaction moves the bytes that were read out of `current` into the tail of
`previous`, so that together they are one stretch of the stream that slides along: the newest
`capacity + writePos` bytes.

* **`compact`** — drop the bytes before the read position, make room behind the write position.
* **`lower`**, **`contains`** — which stream offsets are held.
* **`slice`** — copy a stretch out, given by its stream offset.
-/

namespace StreamScan

/-- Two blocks that hold the newest bytes of a stream. -/
structure Window where
  capacity : Nat
  current : Block
  previous : Block
deriving DecidableEq, Repr

namespace Window

/-- A window of the given capacity, filled with zeroes. -/
def ofCapacity (capacity : Nat) : Window where
  capacity := capacity
  current := Array.replicate capacity 0
  previous := Array.replicate capacity 0

/-- Moves the bytes before the read position into `previous` and the unread ones to the front of
    `current`; with it comes the new write position, the new read position being zero. -/
def compact (w : Window) (readPos writePos : Int) : Int × Window :=
  if readPos ≤ 0 then (writePos, w)
  else
    let size : Int := w.capacity
    let shifted :=
      if readPos < size then
        w.previous.splice 0 (size - readPos) (w.previous.slice readPos w.previous.size)
      else w.previous
    let previous := shifted.splice (size - readPos) shifted.size (w.current.slice 0 readPos)
    let unread := writePos - readPos
    let current := w.current.splice 0 unread (w.current.slice readPos writePos)
    (unread, { w with current, previous })

/-- The lowest stream offset that is still held, if `total` bytes were pulled in all. -/
def lower (w : Window) (total writePos : Int) : Int :=
  max (total - writePos - w.capacity) 0

/-- Whether a stream offset is held, or is that of the next byte. -/
def contains (w : Window) (offset total writePos : Int) : Bool :=
  w.lower total writePos ≤ offset && offset ≤ total

/-- The `length` bytes from stream offset `offset` on.  The caller has made sure that they are
    held. -/
def slice (w : Window) (offset length total writePos : Int) : Bytes :=
  let size : Int := w.capacity
  let base := offset - (total - writePos - size)
  if size ≤ base then (w.current.slice (base - size) (base - size + length)).toList
  else if base + length ≤ size then (w.previous.slice base (base + length)).toList
  else
    let head := w.previous.slice base w.previous.size
    head.toList ++ (w.current.slice 0 (length - head.size)).toList

/-- Writes bytes into `current` from index `i` on. -/
def write (w : Window) (i : Nat) (bytes : Bytes) : Window :=
  { w with current := w.current.overwrite i bytes }

theorem compact_zero (w : Window) (writePos : Int) : w.compact 0 writePos = (writePos, w) := by
  simp [compact]

theorem capacity_compact (w : Window) (readPos writePos : Int) :
    (w.compact readPos writePos).2.capacity = w.capacity := by
  rw [compact]
  split <;> rfl

end Window

end StreamScan

import StreamScan.Source

/-!
# Buffer — a payload in memory, with a read position

A buffer hands out a payload from its position on.  A *portion* caps what one read hands out,
as a socket or a pipe would; a negative portion is no cap but asks for the whole remainder.  A
buffer may also serve positional reads, which leave its position alone.
-/

namespace StreamScan

/-- A payload in memory and how far it has been read. -/
structure Buffer where
  payload : Block
  portion : Option Int
  servesPositions : Bool
  position : Nat
deriving DecidableEq, Repr

namespace Buffer

/-- A buffer at the start of its payload. -/
def ofPayload (payload : Bytes) (portion : Option Int) (servesPositions : Bool) : Buffer :=
  ⟨payload.toArray, portion, servesPositions, 0⟩

/-- How many bytes have not been read. -/
def remaining (b : Buffer) : Nat := b.payload.size - b.position

/-- How many bytes a request for `size` bytes gets; no size or a negative one asks for all. -/
def granted (b : Buffer) : Option Int → Nat
  | some size => if size < 0 then b.remaining else min size.toNat b.remaining
  | none => b.remaining

/-- Takes up to `size` bytes, or the remainder. -/
def take (b : Buffer) (size : Option Int) : Bytes × Buffer :=
  let stop := b.position + b.granted size
  ((b.payload.extract b.position stop).toList, { b with position := stop })

/-- Back to the start of the payload. -/
def rewind (b : Buffer) : Buffer := { b with position := 0 }

/-- The size that a read into `room` asks for. -/
def requested (b : Buffer) (room : Nat) : Int :=
  match b.portion with
  | some portion => min room portion
  | none => room

/-- Reads into room for so many bytes. -/
def read (b : Buffer) (room : Nat) : Reply × Buffer :=
  let taken := b.take (some (b.requested room))
  (.ofBytes taken.1, taken.2)

/-- Up to `size` bytes of the payload from an offset on. -/
def readAt (b : Buffer) : PositionalRead Buffer := fun offset size =>
  if offset < 0 then (.error (.negativeOffset offset), b)
  else (.ok (b.payload.slice offset (offset + size)).toList, b)

theorem granted_le (b : Buffer) (size : Option Int) : b.granted size ≤ b.remaining := by
  unfold granted
  split
  · split <;> omega
  · omega

/-- What is taken and what remains make up what remained. -/
theorem remaining_take (b : Buffer) (size : Option Int) :
    (b.take size).2.remaining + (b.take size).1.length = b.remaining := by
  have h := b.granted_le size
  simp only [remaining] at h ⊢
  simp only [take, Array.length_toList, Array.size_extract]
  omega

instance : FiniteSource Buffer where
  read := read
  readAt? b := if b.servesPositions then some b.readAt else none
  remaining := remaining
  remaining_read b room := by
    show (b.take _).2.remaining + (Reply.ofBytes (b.take _).1).size ≤ b.remaining
    rw [Reply.size_ofBytes]
    exact Nat.le_of_eq (remaining_take b _)

end Buffer

end StreamScan

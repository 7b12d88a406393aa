import StreamScan.Source

/-!
# Streams — binary streams made into sources

Two kinds of stream are adapted.  A `MemoryStream` reads into the room it is given; once it is
closed, a read of it fails.  A `Replies` stream only knows how to return bytes: it plays back a
sequence of items, each of which is bytes or *nothing yet*; an item that is longer than what was
asked for is cut, and its remainder comes next.  When no item is left, a read returns nothing,
which ends the source.
-/

namespace StreamScan

/-- A binary stream in memory, open or closed. -/
structure MemoryStream where
  payload : Block
  position : Nat
  closed : Bool
deriving DecidableEq, Repr

namespace MemoryStream

/-- An open stream at its start. -/
def ofPayload (payload : Bytes) : MemoryStream := ⟨payload.toArray, 0, false⟩

/-- Closes the stream. -/
def close (s : MemoryStream) : MemoryStream := { s with closed := true }

/-- Reads into room for so many bytes. -/
def read (s : MemoryStream) (room : Nat) : Reply × MemoryStream :=
  if s.closed then (.failed .streamClosed, s)
  else
    let bytes := (s.payload.extract s.position (s.position + room)).toList
    (.ofBytes bytes, { s with position := s.position + bytes.length })

/-- How many bytes have not been read. -/
def remaining (s : MemoryStream) : Nat := s.payload.size - s.position

instance : FiniteSource MemoryStream where
  read := read
  remaining := remaining
  remaining_read s room := by
    show (s.read room).2.remaining + (s.read room).1.size ≤ s.remaining
    rw [read]
    split
    · exact Nat.le_refl _
    · simp only [Reply.size_ofBytes, remaining, Array.length_toList, Array.size_extract]
      omega

end MemoryStream

/-- A stream that plays back a sequence of items. -/
structure Replies where
  items : List (Option Bytes)
deriving DecidableEq, Repr

namespace Replies

/-- Reads into room for so many bytes. -/
def read (s : Replies) (room : Nat) : Reply × Replies :=
  match s.items with
  | [] => (.count 0 [], s)
  | none :: rest => (.notYet, ⟨rest⟩)
  | some bytes :: rest =>
    if room < bytes.length then
      (.ofBytes (bytes.take room), ⟨some (bytes.drop room) :: rest⟩)
    else (.ofBytes bytes, ⟨rest⟩)

/-- How many bytes the items hold. -/
def remaining (s : Replies) : Nat :=
  (s.items.map fun i => (i.getD []).length).foldr (· + ·) 0

instance : FiniteSource Replies where
  read := read
  remaining := remaining
  remaining_read s room := by
    show (s.read room).2.remaining + (s.read room).1.size ≤ s.remaining
    obtain ⟨items⟩ := s
    match items with
    | [] => exact Nat.le_refl _
    | none :: rest => simp [read, remaining, Reply.size]
    | some bytes :: rest =>
      rw [read]
      simp only
      split <;>
        simp only [Reply.size_ofBytes, remaining, List.map_cons, List.foldr_cons, Option.getD_some,
          List.length_take, List.length_drop] <;> omega

end Replies

end StreamScan

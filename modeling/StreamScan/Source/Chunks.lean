import StreamScan.Source

/-!
# Chunks — a source over a sequence of byte strings

The chunks are handed out in order, one of them over several reads if it does not fit.  An empty
chunk is no end: it is answered by *not yet*.  The sequence may break off with a failure, which
is raised once; after that it is simply over.
-/

namespace StreamScan

/-- A sequence of chunks, and what is left of the one that is being handed out. -/
structure Chunks where
  pending : Bytes
  chunks : List Bytes
  failure : Option Failure
deriving DecidableEq, Repr

namespace Chunks

/-- A source over a sequence of chunks that may break off with a failure. -/
def ofList (chunks : List Bytes) (failure : Option Failure) : Chunks := ⟨[], chunks, failure⟩

/-- Hands out what fits of the pending chunk. -/
def handOut (s : Chunks) (room : Nat) : Reply × Chunks :=
  (.ofBytes (s.pending.take room), { s with pending := s.pending.drop room })

/-- Reads into room for so many bytes. -/
def read (s : Chunks) (room : Nat) : Reply × Chunks :=
  match s.pending, s.chunks with
  | _ :: _, _ => s.handOut room
  | [], [] =>
    match s.failure with
    | some failure => (.failed failure, { s with failure := none })
    | none => (.count 0 [], s)
  | [], [] :: rest => (.notYet, { s with chunks := rest })
  | [], chunk :: rest => { s with pending := chunk, chunks := rest }.handOut room

/-- How many bytes have not been handed out. -/
def remaining (s : Chunks) : Nat := s.pending.length + s.chunks.flatten.length

theorem remaining_handOut (s : Chunks) (room : Nat) :
    (s.handOut room).2.remaining + (s.handOut room).1.size = s.remaining := by
  simp only [handOut, Reply.size_ofBytes, remaining, List.length_take, List.length_drop]
  omega

theorem remaining_read (s : Chunks) (room : Nat) :
    (s.read room).2.remaining + (s.read room).1.size = s.remaining := by
  obtain ⟨pending, chunks, failure⟩ := s
  cases pending with
  | cons a pending => exact remaining_handOut _ room
  | nil =>
    cases chunks with
    | nil => cases failure <;> rfl
    | cons chunk rest =>
      cases chunk with
      | nil => rfl
      | cons a chunk =>
        refine (remaining_handOut _ room).trans ?_
        simp only [remaining, List.length_nil, List.flatten_cons, List.length_append]
        omega

instance : FiniteSource Chunks where
  read := read
  remaining := remaining
  remaining_read s room := Nat.le_of_eq (s.remaining_read room)

end Chunks

end StreamScan

import StreamScan.Source

/-!
# Pipe — a handoff between one writer and one reader

A pipe holds the bytes of one write at a time.  A write begins by making its bytes pending and is
over when the reader has taken all of them, so the writer never runs ahead of the reader.  Either
side can be closed at any time.  Closing the write side ends the stream once what is pending has
been taken, or makes it fail if an error was given; the latest close decides which.  Closing the
read side breaks the write that is waiting.

* **`Pipe.begin`** — a write begins, or is refused at once.
* **`Pipe.settle`** — what has become of the write that began.
* **`Pipe.read?`** — the answer to a read, if it need not wait.
-/

namespace StreamScan

/-- The state that a writer and a reader share. -/
structure Pipe where
  /-- The bytes that the reader has not taken. -/
  pending : Bytes
  /-- The length of the write that waits for the reader. -/
  writing : Option Nat
  writeClosed : Bool
  /-- The error that the write side was closed with. -/
  writeError : Option Failure
  readClosed : Bool
deriving DecidableEq, Repr

namespace Pipe

/-- A pipe with both sides open. -/
def empty : Pipe := ⟨[], none, false, none, false⟩

/-- Begins a write.  The caller has no other write waiting. -/
def begin (p : Pipe) (data : Bytes) : Except Failure Pipe :=
  if p.writeClosed then .error .writeToClosedPipe
  else if p.readClosed then .error .readSideClosed
  else .ok { p with pending := data, writing := some data.length }

/-- What has become of the write that waits: nothing yet, or its result.  A write that is broken
    takes its remaining bytes back. -/
def settle (p : Pipe) : Option (Except Failure Nat) × Pipe :=
  match p.writing with
  | none => (none, p)
  | some total =>
    if p.pending = [] then (some (.ok total), { p with writing := none })
    else if p.readClosed then
      (some (.error (.readSideClosedAfter (total - p.pending.length) total)),
        { p with pending := [], writing := none })
    else (none, p)

/-- Reads into room for so many bytes, unless the reader has to wait. -/
def read? (p : Pipe) (room : Nat) : Option (Reply × Pipe) :=
  if p.pending ≠ [] then
    some (.ofBytes (p.pending.take room), { p with pending := p.pending.drop room })
  else if p.readClosed then some (.failed .readFromClosedPipe, p)
  else if p.writeClosed then
    match p.writeError with
    | some failure => some (.failed (.producerFailed failure), p)
    | none => some (.count 0 [], p)
  else none

/-- Closes the write side, with an error or without. -/
def close (p : Pipe) (error : Option Failure) : Pipe :=
  { p with writeClosed := true, writeError := error }

/-- Closes the read side. -/
def closeReader (p : Pipe) : Pipe := { p with readClosed := true }

/-- Reads a pipe that nobody writes to any more: a reader that has to wait waits in vain. -/
def read (p : Pipe) (room : Nat) : Reply × Pipe :=
  (p.read? room).getD (.failed .abandonedPipe, p)

/-- A read takes from what is pending. -/
theorem length_read? {p p' : Pipe} {room : Nat} {reply : Reply}
    (h : p.read? room = some (reply, p')) :
    p'.pending.length + reply.size = p.pending.length := by
  unfold read? at h
  split at h
  · simp only [Option.some.injEq, Prod.mk.injEq] at h
    rw [← h.1, ← h.2, Reply.size_ofBytes]
    simp only [List.length_drop, List.length_take]
    omega
  · split at h
    · simp only [Option.some.injEq, Prod.mk.injEq] at h
      rw [← h.1, ← h.2]
      rfl
    · split at h
      · split at h <;>
          · simp only [Option.some.injEq, Prod.mk.injEq] at h
            rw [← h.1, ← h.2]
            rfl
      · exact absurd h (by simp)

instance : FiniteSource Pipe where
  read := read
  remaining p := p.pending.length
  remaining_read p room := by
    show (p.read room).2.pending.length + (p.read room).1.size ≤ p.pending.length
    rw [read]
    cases h : p.read? room with
    | none => exact Nat.le_refl _
    | some answer => exact Nat.le_of_eq (length_read? h)

end Pipe

end StreamScan

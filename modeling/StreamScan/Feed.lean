import StreamScan.Pipe
import StreamScan.Scan
import StreamScan.Source.Input

/-!
# Feeds — a producer that is copied into a pipe while it is read

A feed is the push side of a scan.  A producer has chunks to give and may fail after the last of
them; a copy task writes each chunk into a pipe and waits until the reader has taken it.  When the
producer is exhausted, the task closes the pipe; when it fails, the task closes the pipe with the
failure.  A task whose write is broken, because nobody reads any more, leaves the pipe alone.

The task runs only when the reader has to wait for it, which shows the reader the same bytes as
any other interleaving: no write is ever more than one chunk ahead.

* **`Producer`** — chunks, none of them empty, and perhaps a failure.
* **`Feed.settled`**, **`Feed.produced`** — the two moves of the copy task.
* **`Feed.read`** — a read, after the task has made the moves that the reader waits for.
* **`Feed.released`** — the feed after the reader has left and the task is over.
-/

namespace StreamScan

/-- How many bytes of a stream are copied at a time. -/
def copySize : Nat := 32768

/-- A byte string in portions of the copy size. -/
def portions (data : Bytes) : List Bytes :=
  if _h : data = [] then [] else data.take copySize :: portions (data.drop copySize)
termination_by data.length
decreasing_by
  have : 0 < data.length := List.length_pos_iff.2 _h
  simp only [List.length_drop, copySize]
  omega

/-- Chunks to be copied, none of them empty, and the failure after the last of them. -/
structure Producer where
  chunks : List Bytes
  failure : Option Failure
  nil_not_mem : [] ∉ chunks

namespace Producer

/-- A producer of chunks.  Empty ones are left out. -/
def ofChunks (chunks : List Bytes) (failure : Option Failure) : Producer where
  chunks := chunks.filter (!·.isEmpty)
  failure := failure
  nil_not_mem := by simp

/-- A producer that reads a stream. -/
def ofStream (data : Bytes) : Producer := ofChunks (portions data) none

/-- A producer that reads an input. -/
def ofInput (input : Input) : Producer := ofChunks (portions input.bytes) input.failure

/-- The producer after its first chunk. -/
def rest (p : Producer) : Producer where
  chunks := p.chunks.tail
  failure := p.failure
  nil_not_mem := fun h => p.nil_not_mem (List.mem_of_mem_tail h)

end Producer

/-- A producer, the pipe it is copied into, and how far the copy task has come. -/
structure Feed where
  pipe : Pipe
  producer : Producer
  /-- How many bytes the reader has taken of finished writes. -/
  copied : Nat
  /-- The result of the task, once it is over. -/
  outcome : Option (Except Failure Nat)

namespace Feed

/-- A feed of which nothing has been copied. -/
def ofProducer (producer : Producer) : Feed := ⟨.empty, producer, 0, none⟩

/-- The task ends with a failure.  If the write was broken, the pipe stays as it is; any other
    failure is passed on to the reader. -/
def fail (f : Feed) (failure : Failure) : Feed :=
  { f with
    outcome := some (.error failure)
    pipe := if failure.kind = .brokenPipe then f.pipe else f.pipe.close (some failure) }

/-- The task takes note of what became of its write. -/
def settled (f : Feed) : Feed :=
  match f.pipe.settle with
  | (none, pipe) => { f with pipe }
  | (some (.ok length), pipe) => { f with pipe, copied := f.copied + length }
  | (some (.error failure), pipe) => { f with pipe }.fail failure

/-- Unless it is over or waits for the reader, the task begins to write the next chunk, or ends. -/
def produced (f : Feed) : Feed :=
  if f.outcome.isSome || f.pipe.writing.isSome then f
  else
    match f.producer.chunks with
    | chunk :: _ =>
      let f := { f with producer := f.producer.rest }
      match f.pipe.begin chunk with
      | .ok pipe => { f with pipe }
      | .error failure => f.fail failure
    | [] =>
      match f.producer.failure with
      | some failure => f.fail failure
      | none => { f with pipe := f.pipe.close none, outcome := some (.ok f.copied) }

/-- The task makes the moves that it can make. -/
def advanced (f : Feed) : Feed := f.settled.produced

/-- Reads the pipe and leaves the task alone. -/
def readPipe (f : Feed) (room : Nat) : Reply × Feed :=
  let (reply, pipe) := f.pipe.read room
  (reply, { f with pipe })

/-- Reads into room for so many bytes.  If the reader has to wait, the task goes on first. -/
def read (f : Feed) (room : Nat) : Reply × Feed :=
  if (f.pipe.read? room).isSome then f.readPipe room else f.advanced.readPipe room

/-- How many bytes have not been read. -/
def remaining (f : Feed) : Nat := f.pipe.pending.length + f.producer.chunks.flatten.length

/-- Nobody reads any more, and the task comes to its end. -/
def released (f : Feed) : Feed := { f with pipe := f.pipe.closeReader }.advanced

theorem remaining_fail (f : Feed) (failure : Failure) :
    (f.fail failure).remaining = f.remaining := by
  unfold fail remaining
  simp only
  split <;> rfl

theorem pending_settle_le (p : Pipe) : p.settle.2.pending.length ≤ p.pending.length := by
  rw [Pipe.settle]
  split
  · exact Nat.le_refl _
  · split
    · exact Nat.le_refl _
    · split
      · exact Nat.zero_le _
      · exact Nat.le_refl _

theorem remaining_settled_le (f : Feed) : f.settled.remaining ≤ f.remaining := by
  have h := pending_settle_le f.pipe
  rw [settled]
  split <;> rename_i heq <;> rw [heq] at h <;> (try rw [remaining_fail]) <;>
    simp only [remaining] at h ⊢ <;> omega

theorem remaining_produced_le (f : Feed) : f.produced.remaining ≤ f.remaining := by
  rw [produced]
  split
  · exact Nat.le_refl _
  · split
    · rename_i chunk rest heq
      have hchunks : f.producer.chunks.flatten.length = chunk.length + rest.flatten.length := by
        rw [heq, List.flatten_cons, List.length_append]
      have hrest : f.producer.rest.chunks = rest := congrArg List.tail heq
      simp only
      split
      · rename_i pipe hbegin
        have hpending : pipe.pending = chunk := by
          rw [Pipe.begin] at hbegin
          split at hbegin
          · cases hbegin
          · split at hbegin
            · cases hbegin
            · cases hbegin
              rfl
        simp only [remaining, hpending, hrest, hchunks]
        omega
      · rw [remaining_fail]
        simp only [remaining, hrest, hchunks]
        omega
    · split
      · exact Nat.le_of_eq (f.remaining_fail _)
      · exact Nat.le_refl _

theorem remaining_readPipe_le (f : Feed) (room : Nat) :
    (f.readPipe room).2.remaining + (f.readPipe room).1.size ≤ f.remaining := by
  have h := FiniteSource.remaining_read f.pipe room
  simp only [readPipe, remaining]
  change (f.pipe.read room).2.pending.length + (f.pipe.read room).1.size ≤
    f.pipe.pending.length at h
  omega

theorem remaining_advanced_le (f : Feed) : f.advanced.remaining ≤ f.remaining :=
  Nat.le_trans (remaining_produced_le _) f.remaining_settled_le

instance : FiniteSource Feed where
  read := read
  remaining := remaining
  remaining_read f room := by
    show (f.read room).2.remaining + (f.read room).1.size ≤ f.remaining
    rw [read]
    split
    · exact f.remaining_readPipe_le room
    · exact Nat.le_trans (remaining_readPipe_le _ room) f.remaining_advanced_le

end Feed

namespace Scan

variable {ε : Type} [MatchEngine ε (Cursor Feed)]

/-- The scan after its reader has left the pipe. -/
def released (s : Scan ε Feed) : Scan ε Feed :=
  { s with cursor := { s.cursor with source := s.cursor.source.released } }

/-- A pass over a feed of at most so many matches.  However it ends, the reader leaves the pipe
    and the copy task comes to its end. -/
def runFed {α : Type} (receive : Receiver α Feed) (count : Nat) (a : α) (s : Scan ε Feed) :
    Ending × α × Scan ε Feed :=
  let (ending, a, s) := s.run receive count a
  (ending, a, s.released)

end Scan

end StreamScan

import StreamScan.Source

/-!
# Inputs — what an open stream of the operating system gives

A stream that the operating system has opened gives bytes, and then it ends or a read of it fails:
a terminal may be gone, a device may refuse.  What a read has taken when it fails is lost with it,
so the bytes of an input are those of the reads that succeed.  With one error no input breaks off,
that of a write to a pipe without a reader: who copies an input into a pipe could not tell it from
an error of this pipe.

* **`Input`** — the bytes of a stream, and the error behind them.
* **`InputStream`** — a source that reads an input.
-/

namespace StreamScan

/-- The bytes that an open stream gives, and the error that it breaks off with, if it does not
    end. -/
structure Input where
  bytes : Bytes
  error : Option SystemError
  kind_ne : ∀ e, error = some e → e.kind ≠ .brokenPipe

namespace Input

/-- An input that ends. -/
def ofBytes (bytes : Bytes) : Input := ⟨bytes, none, nofun⟩

/-- The failure of the read behind the last byte. -/
def failure (i : Input) : Option Failure := i.error.map .unreadable

end Input

/-- An input and how far it has been read. -/
structure InputStream where
  input : Input
  position : Nat

namespace InputStream

/-- An input of which nothing has been read. -/
def ofInput (input : Input) : InputStream := ⟨input, 0⟩

/-- Reads into room for so many bytes. -/
def read (s : InputStream) (room : Nat) : Reply × InputStream :=
  match s.input.bytes.drop s.position, s.input.failure with
  | [], some failure => (.failed failure, s)
  | rest, _ =>
    (.ofBytes (rest.take room), { s with position := s.position + (rest.take room).length })

/-- How many bytes have not been read. -/
def remaining (s : InputStream) : Nat := s.input.bytes.length - s.position

instance : FiniteSource InputStream where
  read := read
  remaining := remaining
  remaining_read s room := by
    show (s.read room).2.remaining + (s.read room).1.size ≤ s.remaining
    rw [read]
    split
    · exact Nat.le_refl _
    · simp only [Reply.size_ofBytes, remaining, List.length_take, List.length_drop]
      omega

end InputStream

end StreamScan

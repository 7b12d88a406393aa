import StreamScan.Source
import StreamScan.Address
import StreamScan.FileSystem

/-!
# Files — a source that is opened when it is needed

A file source is named by an address.  It opens its file at the first read, and again at the first
read after it was closed; it then starts from the beginning.  Positional reads do not move the
position of the others.
-/

namespace StreamScan

/-- The content of an open file and how far it has been read. -/
structure OpenFile where
  content : Block
  position : Nat
deriving DecidableEq, Repr

/-- A regular file, given by its address. -/
structure FileSource where
  fileSystem : FileSystem
  address : String
  handle : Option OpenFile

namespace FileSource

/-- A file that has not been opened. -/
def ofAddress (fileSystem : FileSystem) (address : String) : FileSource :=
  ⟨fileSystem, address, none⟩

/-- The path of the file. -/
def path (s : FileSource) : Except Failure String := Address.path s.address

/-- The file at its start, if there is one and it can be opened. -/
def fresh (s : FileSource) : Except Failure OpenFile := do
  match s.fileSystem.regular? (← s.path) with
  | some (.ok content) => .ok ⟨content, 0⟩
  | some (.error failure) => .error failure
  | none => .error (.resourceMissing s.address)

theorem fresh_eq (s : FileSource) : s.fresh =
    match s.path with
    | .error failure => .error failure
    | .ok path =>
      match s.fileSystem.regular? path with
      | some (.ok content) => .ok ⟨content, 0⟩
      | some (.error failure) => .error failure
      | none => .error (.resourceMissing s.address) := by
  rw [fresh]
  cases s.path with
  | error failure => rfl
  | ok path => rfl

/-- A file is opened at its start. -/
theorem position_of_fresh {s : FileSource} {file : OpenFile} (h : s.fresh = .ok file) :
    file.position = 0 := by
  rw [fresh_eq] at h
  split at h
  · exact nomatch h
  · split at h
    · obtain rfl := Except.ok.inj h
      rfl
    · cases h
    · cases h

/-- The open file, opened now if it is not. -/
def current (s : FileSource) : Except Failure OpenFile :=
  match s.handle with
  | some file => .ok file
  | none => s.fresh

/-- Opens the file if it is not open. -/
def opened (s : FileSource) : Except Failure Unit × FileSource :=
  match s.current with
  | .ok file => (.ok (), { s with handle := some file })
  | .error failure => (.error failure, s)

/-- Closes the file. -/
def close (s : FileSource) : FileSource := { s with handle := none }

/-- Reads into room for so many bytes. -/
def read (s : FileSource) (room : Nat) : Reply × FileSource :=
  match s.current with
  | .error failure => (.failed failure, s)
  | .ok file =>
    let bytes := (file.content.extract file.position (file.position + room)).toList
    (.ofBytes bytes,
      { s with handle := some { file with position := file.position + bytes.length } })

/-- Up to `size` bytes of the file from an offset on. -/
def readAt (s : FileSource) : PositionalRead FileSource := fun offset size =>
  match s.current with
  | .error failure => (.error failure, s)
  | .ok file =>
    let s := { s with handle := some file }
    if offset < 0 ∨ size < 0 then (.error .refusedArgument, s)
    else (.ok (file.content.slice offset (offset + size)).toList, s)

/-- How many bytes have not been read; for a file that is not open, all of them. -/
def remaining (s : FileSource) : Nat :=
  match s.current with
  | .ok file => file.content.size - file.position
  | .error _ => 0

theorem remaining_of_current {s : FileSource} {file : OpenFile} (h : s.current = .ok file) :
    s.remaining = file.content.size - file.position := by
  rw [remaining, h]

instance : FiniteSource FileSource where
  read := read
  readAt? s := some s.readAt
  remaining := remaining
  remaining_read s room := by
    show (s.read room).2.remaining + (s.read room).1.size ≤ s.remaining
    unfold read
    split
    · exact Nat.le_refl _
    · rename_i file heq
      rw [remaining_of_current heq, remaining_of_current rfl]
      simp only [Reply.size_ofBytes, Array.length_toList, Array.size_extract]
      omega

end FileSource

end StreamScan

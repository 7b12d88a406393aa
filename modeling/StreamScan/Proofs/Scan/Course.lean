import StreamScan.Proofs.Cursor.Following
import StreamScan.Proofs.Engine.Turning
import StreamScan.Scan

/-!
# The course of a scan

What a scan finds in a stream does not depend on how the stream arrives: a search through a cursor
gives the answer of a search through the tape of what follows its position.  So an engine and a
stream have one `Course`: the findings, one after the other, and how the search for the next one
ends at last.

Whether a finding can be copied does depend on the arrival.  With a finding goes its `mark`, the
position at which the last read of its search began; all that is certain is that `current` begins
no later than the mark.  A finding is `Late` if more than a window lies between the offset that has
to be held and the mark.

* **`Reached`** — the cursor that a number of calls leads to.
* **`findNext_cursor`** — the search through a cursor is the search through the tape.
* **`Course`** — the findings of an engine in a stream, and the end.
* **`exists_course`** — there is a course, and it is not longer than the stream.
-/

namespace StreamScan

/-! ## Searching through a cursor -/

namespace Cursor

variable {σ : Type} {R : σ → Nat → Bytes → Prop} {positional : Bool} {stream : Bytes}

/-- The cursor that a number of calls leads to: it stands behind so many code points of the text
    that follows the position `c` was at. -/
structure Reached (R : σ → Nat → Bytes → Prop) (stream : Bytes) (c : Cursor σ) (calls : Nat)
    (c' : Cursor σ) : Prop where
  follows : c'.Follows R stream
  lastMatchEnd : c'.lastMatchEnd = c.lastMatchEnd
  capacity : c'.capacity = c.capacity
  delivered : c'.delivered =
    c.delivered + width ((Utf8.codepoints (stream.drop c.delivered)).take calls)
  start_le : c'.currentStart ≤ max c.currentStart
    (c.delivered + width ((Utf8.codepoints (stream.drop c.delivered)).take (calls - 1)))

theorem Reached.refl {c : Cursor σ} (h : c.Follows R stream) : Reached R stream c 0 c where
  follows := h
  lastMatchEnd := rfl
  capacity := rfl
  delivered := rfl
  start_le := Nat.le_max_left _ _

variable [ByteSource σ]

/-- One call more. -/
theorem Reached.next (haccount : Account positional stream R) {c c' : Cursor σ} {n : Nat}
    (h : Reached R stream c n c') :
    ∃ c'', c'.next = (.ok (Utf8.codepoints (stream.drop c.delivered))[n]?, c'') ∧
      Reached R stream c (n + 1) c'' := by
  obtain ⟨c'', hnext, hstepped⟩ := h.follows.next haccount
  have hpoint : Utf8.decode (stream.drop c'.delivered) =
      (Utf8.codepoints (stream.drop c.delivered))[n]? := by
    rw [h.delivered, ← List.drop_drop, Utf8.getElem?_codepoints]
  have hdelivered := hstepped.delivered
  have hstart := hstepped.start_le
  rw [hpoint] at hnext hdelivered
  refine ⟨c'', hnext, hstepped.follows, hstepped.lastMatchEnd.trans h.lastMatchEnd,
    hstepped.capacity.trans h.capacity, ?_, ?_⟩
  · rw [hdelivered, h.delivered]
    generalize Utf8.codepoints (stream.drop c.delivered) = w
    by_cases hn : n < w.length
    · rw [List.getElem?_eq_getElem hn, width_take_succ hn, Nat.add_assoc]
      rfl
    · rw [List.getElem?_eq_none (Nat.le_of_not_lt hn), List.take_of_length_le (by omega),
        List.take_of_length_le (i := n + 1) (by omega)]
      rfl
  · have hle := h.start_le
    have hmono : width ((Utf8.codepoints (stream.drop c.delivered)).take (n - 1)) ≤
        width ((Utf8.codepoints (stream.drop c.delivered)).take n) :=
      width_take_le (Nat.sub_le n 1)
    rw [h.delivered] at hstart
    rw [Nat.add_sub_cancel]
    omega

end Cursor

namespace Cursor

variable {σ : Type} [FiniteSource σ] {R : σ → Nat → Bytes → Prop} {positional : Bool}
  {stream : Bytes}

/-- A cursor answers as the tape of what follows its position. -/
theorem alike_of_follows (haccount : Account positional stream R) (c : Cursor σ) :
    AnswerAlike
      (fun t c' => ∃ n, t = Tape.after (Utf8.codepoints (stream.drop c.delivered)) n ∧
        Reached R stream c n c')
      (fun t c' => ∃ n, t = Tape.after (Utf8.codepoints (stream.drop c.delivered)) n ∧
        Reached R stream c n c') where
  answer {t c'} h := by
    obtain ⟨n, rfl, hreached⟩ := h
    obtain ⟨c'', hnext, -⟩ := hreached.next haccount
    rw [Tape.next_after]
    exact (congrArg Prod.fst hnext).symm
  going {t c' point} h hsome := by
    obtain ⟨n, rfl, hreached⟩ := h
    obtain ⟨c'', hnext, hreached'⟩ := hreached.next haccount
    rw [Tape.next_after]
    refine ⟨n + 1, rfl, ?_⟩
    rw [show CodepointReader.next c' = _ from hnext]
    exact hreached'
  last {t c'} h := by
    obtain ⟨n, rfl, hreached⟩ := h
    obtain ⟨c'', hnext, hreached'⟩ := hreached.next haccount
    rw [Tape.next_after]
    refine ⟨n + 1, rfl, ?_⟩
    rw [show CodepointReader.next c' = _ from hnext]
    exact hreached'
  enough h := h

end Cursor

/-! ## Findings -/

/-- The tape of what follows a position of a stream. -/
def tapeFrom (stream : Bytes) (position : Nat) : Tape :=
  Tape.after (Utf8.codepoints (stream.drop position)) 0

/-- A match that a search found in a stream, by its offsets, and the position at which the last
    read of the search began. -/
structure Finding where
  start : Nat
  stop : Nat
  mark : Nat
deriving DecidableEq, Repr

/-- The bytes between two offsets of a stream. -/
def Span.toMatch (stream : Bytes) (s : Span) : Match :=
  ⟨s.start, (stream.drop s.start).take (s.stop - s.start)⟩

namespace Finding

/-- The stretch of a stream that was found. -/
def span (f : Finding) : Span := ⟨f.start, f.stop⟩

/-- The bytes of a finding and where they are. -/
def toMatch (stream : Bytes) (f : Finding) : Match := f.span.toMatch stream

/-- More than a window lies between the offset that has to be held and the mark. -/
def Late (positional : Bool) (capacity : Nat) (f : Finding) : Prop :=
  Cursor.Follows.needed positional f.start f.stop + capacity < f.mark

instance (positional : Bool) (capacity : Nat) (f : Finding) :
    Decidable (f.Late positional capacity) :=
  inferInstanceAs (Decidable (_ < _))

/-- A finding is not late if a window behind the start of it reaches up to the mark. -/
theorem not_late {positional : Bool} {capacity : Nat} {f : Finding} (hspan : f.start ≤ f.stop)
    (hmark : f.mark ≤ f.start + capacity) : ¬ f.Late positional capacity := by
  rw [Late, Cursor.Follows.needed]
  split <;> omega

end Finding

/-- What the search from a position of a stream finds. -/
def Finds (e : Engine) (stream : Bytes) (position : Nat) (f : Finding) : Prop :=
  ∃ location calls,
    e.findNext (tapeFrom stream position) =
      (.ok (some location), Tape.after (Utf8.codepoints (stream.drop position)) calls) ∧
    f = ⟨position + location.start, position + location.stop,
      position + width ((Utf8.codepoints (stream.drop position)).take (calls - 1))⟩

/-- A search through a cursor is the search through the tape of what follows its position. -/
theorem findNext_cursor {σ : Type} [FiniteSource σ] {R : σ → Nat → Bytes → Prop}
    {positional : Bool} {stream : Bytes} (haccount : Account positional stream R) {c : Cursor σ}
    (h : c.Follows R stream) (e : Engine) {calls : Nat}
    (hcalls : (e.findNext (tapeFrom stream c.delivered)).2 =
      Tape.after (Utf8.codepoints (stream.drop c.delivered)) calls) :
    ∃ c', e.findNext c = ((e.findNext (tapeFrom stream c.delivered)).1, c') ∧
      c.Reached R stream calls c' := by
  obtain ⟨hanswer, n, htape, hreached⟩ := Engine.findFrom_alike (e := e) (x := .empty)
    (Cursor.alike_of_follows haccount c) ⟨0, rfl, .refl h⟩
  have hn : calls = n := by
    rw [Engine.findNext, tapeFrom] at hcalls
    rw [hcalls] at htape
    exact congrArg Tape.calls htape
  subst hn
  exact ⟨(e.findFrom .empty c).2, Prod.ext hanswer.symm rfl, hreached⟩

section
variable {e : Engine} {stream : Bytes} {position : Nat}

/-- A search through the rest of a stream has called its reader a number of times in the end, and
    the stretch that it names lies between code points that were read. -/
theorem findNext_tapeFrom (hm : e.matcher.Confined) (stream : Bytes) (position : Nat) :
    ∃ calls, (e.findNext (tapeFrom stream position)).2 =
        Tape.after (Utf8.codepoints (stream.drop position)) calls ∧
      ∀ location, (e.findNext (tapeFrom stream position)).1 = .ok (some location) →
        ∃ t : Span, t.start ≤ t.stop ∧ t.stop ≤ calls ∧
          location = t.inBytes (Utf8.codepoints (stream.drop position)) := by
  obtain ⟨x, s, hbegins, hcloses⟩ := Engine.findNext_closes e (tapeFrom stream position)
  obtain ⟨v, cut, keep, hholds⟩ := hbegins.holds hm
  obtain ⟨u, t, handed, hafter, hlocation⟩ := hholds.closes hm hcloses
  rw [tapeFrom] at handed
  generalize Utf8.codepoints (stream.drop position) = w at handed ⊢
  obtain ⟨htake, -, rfl⟩ := handed_tape handed
  have hspan (location : Span)
      (hanswer : (e.findNext (tapeFrom stream position)).1 = .ok (some location)) :
      ∃ t : Span, t.start ≤ t.stop ∧ t.stop ≤ u.length ∧ location = t.inBytes w := by
    obtain ⟨t, -, horder, hinside, rfl⟩ := hlocation location hanswer
    refine ⟨t, horder, hinside, ?_⟩
    rw [htake, Span.inBytes_take (Nat.le_trans horder hinside) hinside]
  rcases hafter with hsame | ⟨honce, -⟩
  · exact ⟨u.length, hsame, hspan⟩
  · rw [Tape.next_after] at honce
    refine ⟨u.length + 1, honce, fun location hanswer => ?_⟩
    obtain ⟨t, horder, hinside, heq⟩ := hspan location hanswer
    exact ⟨t, horder, Nat.le_succ_of_le hinside, heq⟩

/-- Where a finding lies. -/
theorem Finds.bounds (hm : e.matcher.Confined) {f : Finding} (h : Finds e stream position f) :
    position ≤ f.start ∧ f.start ≤ f.stop := by
  obtain ⟨location, calls, hfind, rfl⟩ := h
  obtain ⟨_, -, hanswer⟩ := findNext_tapeFrom hm stream position
  obtain ⟨t, hspan, -, rfl⟩ := hanswer location (congrArg Prod.fst hfind)
  have hle := width_take_le (w := Utf8.codepoints (stream.drop position)) hspan
  constructor
  · exact Nat.le_add_right _ _
  · exact Nat.add_le_add_left hle position

/-- A finding ends between two code points. -/
theorem Finds.place (hm : e.matcher.Confined) (hposition : Utf8.Place stream position)
    {f : Finding} (h : Finds e stream position f) : Utf8.Place stream f.stop := by
  obtain ⟨location, calls, hfind, rfl⟩ := h
  obtain ⟨_, -, hanswer⟩ := findNext_tapeFrom hm stream position
  obtain ⟨t, -, -, rfl⟩ := hanswer location (congrArg Prod.fst hfind)
  exact hposition.add t.stop

end

/-! ## Courses -/

/-- What there is to find in a stream from a position on, and how the search for more ends.  After
    an empty match the search goes on behind the next code point. -/
inductive Course (e : Engine) (stream : Bytes) : Nat → List Finding → Ending → Prop
  | finished {position : Nat} (h : (e.findNext (tapeFrom stream position)).1 = .ok none) :
    Course e stream position [] .finished
  | refused {position : Nat} {failure : Failure}
    (h : (e.findNext (tapeFrom stream position)).1 = .error failure) :
    Course e stream position [] (.failed failure)
  | last {position : Nat} {f : Finding} (h : Finds e stream position f) (empty : f.start = f.stop)
    (atEnd : Utf8.decode (stream.drop f.stop) = none) :
    Course e stream position [f] .finished
  | empty {position : Nat} {f : Finding} {point : Codepoint} {findings : List Finding}
    {ending : Ending} (h : Finds e stream position f) (empty : f.start = f.stop)
    (hpoint : Utf8.decode (stream.drop f.stop) = some point)
    (rest : Course e stream (f.stop + point.size) findings ending) :
    Course e stream position (f :: findings) ending
  | full {position : Nat} {f : Finding} {findings : List Finding} {ending : Ending}
    (h : Finds e stream position f) (nonempty : f.start < f.stop)
    (rest : Course e stream f.stop findings ending) :
    Course e stream position (f :: findings) ending

/-- There is a course from every place of a stream, and it has no more findings than there are
    places left. -/
theorem exists_course {e : Engine} (hm : e.matcher.Confined) {stream : Bytes} {position : Nat}
    (hposition : Utf8.Place stream position) :
    ∃ findings ending, Course e stream position findings ending ∧
      findings.length + position ≤ stream.length + 1 := by
  -- a finding that is not the last leaves less of the stream
  induction hleft : stream.length - position using Nat.strongRecOn generalizing position with
  | ind left ih =>
    have hle := hposition.le
    obtain ⟨calls, htape, hanswer⟩ := findNext_tapeFrom hm stream position
    rcases hcase : (e.findNext (tapeFrom stream position)).1 with failure | _ | location
    · exact ⟨[], .failed failure, .refused hcase, by rw [List.length_nil]; omega⟩
    · exact ⟨[], .finished, .finished hcase, by rw [List.length_nil]; omega⟩
    · have hfinds : Finds e stream position _ :=
        ⟨location, calls, Prod.ext hcase htape, rfl⟩
      generalize (⟨position + location.start, position + location.stop, _⟩ : Finding) = f
        at hfinds
      obtain ⟨hstart, hspan⟩ := hfinds.bounds hm
      have hstop := hfinds.place hm hposition
      have hinside := hstop.le
      by_cases hempty : f.start = f.stop
      · cases hpoint : Utf8.decode (stream.drop f.stop) with
        | none =>
          exact ⟨[f], .finished, .last hfinds hempty hpoint, by
            rw [List.length_singleton]; omega⟩
        | some point =>
          have hsize := Utf8.decode_size hpoint
          have hnext := hstop.next hpoint
          obtain ⟨findings, ending, hcourse, hlength⟩ := ih (stream.length - (f.stop + point.size))
            (by rw [List.length_drop] at hsize; omega) hnext rfl
          exact ⟨f :: findings, ending, .empty hfinds hempty hpoint hcourse, by
            rw [List.length_cons]; omega⟩
      · obtain ⟨findings, ending, hcourse, hlength⟩ := ih (stream.length - f.stop)
          (by omega) hstop rfl
        exact ⟨f :: findings, ending, .full hfinds (by omega) hcourse, by
          rw [List.length_cons]; omega⟩

end StreamScan

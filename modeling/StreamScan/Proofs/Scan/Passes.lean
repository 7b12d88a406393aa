import StreamScan.Proofs.Scan.Course

/-!
# What a pass delivers

A pass follows the course of its engine through the stream.  At each finding it has to copy the
bytes of the match, and that is the only thing that can go wrong: the window may have moved on.  It
cannot have moved on unless the finding is late, since `current` begins no later than the last read
of the search.

So passes over the same stream agree up to the first late finding, and altogether if there is none.
Where a late finding is lost depends on the arrival: when many bytes come at once, the window holds
a match that it has lost when they come one by one (`outcome_depends_on_arrival`).

* **`Delivered`** — what a pass can make of a course.
* **`Ready`** — the cursor between two turns of a pass.
* **`delivered_run`** — a pass of enough matches delivers its course, by induction over that.
* **`outcome_agree`** — two sources with the same stream.
-/

namespace StreamScan

/-- The matches that a pass delivers, and how it ends, when its course is given: it follows the
    course to its end, or it breaks off with a failure at a late finding. -/
inductive Delivered (positional : Bool) (capacity : Nat) (stream : Bytes) (ending : Ending) :
    List Finding → List Match → Ending → Prop
  | done : Delivered positional capacity stream ending [] [] ending
  | lost {f : Finding} {findings : List Finding} {failure : Failure}
    (late : f.Late positional capacity)
    (kind : positional = false → failure.kind = .outOfWindow) :
    Delivered positional capacity stream ending (f :: findings) [] (.failed failure)
  | next {f : Finding} {findings : List Finding} {matches_ : List Match} {ending' : Ending}
    (rest : Delivered positional capacity stream ending findings matches_ ending') :
    Delivered positional capacity stream ending (f :: findings) (f.toMatch stream :: matches_)
      ending'

namespace Delivered

variable {positional positional' : Bool} {capacity : Nat} {stream : Bytes}
  {ending ending₁ ending₂ : Ending} {findings : List Finding} {matches₁ matches₂ : List Match}

/-- Everything is delivered, or else all that comes before some late finding. -/
theorem complete_or_lost
    (h : Delivered positional capacity stream ending findings matches₁ ending₁) :
    (matches₁ = findings.map (·.toMatch stream) ∧ ending₁ = ending) ∨
      ∃ before f after failure, findings = before ++ f :: after ∧ f.Late positional capacity ∧
        matches₁ = before.map (·.toMatch stream) ∧ ending₁ = .failed failure ∧
        (positional = false → failure.kind = .outOfWindow) := by
  induction h with
  | done => exact Or.inl ⟨rfl, rfl⟩
  | lost late kind => exact Or.inr ⟨[], _, _, _, rfl, late, rfl, rfl, kind⟩
  | next _ ih =>
    rename_i f findings matches_ ending' _
    rcases ih with ⟨hmatches, hending⟩ |
      ⟨before, g, after, failure, hsplit, hlate, hmatches, hending, hkind⟩
    · refine Or.inl ⟨?_, hending⟩
      rw [hmatches, List.map_cons]
    · refine Or.inr ⟨f :: before, g, after, failure, ?_, hlate, ?_, hending, hkind⟩
      · rw [hsplit, List.cons_append]
      · rw [hmatches, List.map_cons]

/-- Without late findings everything is delivered. -/
theorem complete (h : Delivered positional capacity stream ending findings matches₁ ending₁)
    (hnone : ∀ f ∈ findings, ¬ f.Late positional capacity) :
    matches₁ = findings.map (·.toMatch stream) ∧ ending₁ = ending := by
  rcases h.complete_or_lost with hall | ⟨before, f, after, -, rfl, hlate, -⟩
  · exact hall
  · exact absurd hlate (hnone f (List.mem_append_right before List.mem_cons_self))

/-- What is delivered is the front of the course. -/
theorem isPrefix (h : Delivered positional capacity stream ending findings matches₁ ending₁) :
    matches₁ <+: findings.map (·.toMatch stream) := by
  induction h with
  | done => exact List.prefix_refl _
  | lost _ _ => exact List.nil_prefix
  | next _ ih => exact (List.prefix_cons_inj _).mpr ih

/-- Of two passes that follow one course, one delivers the first matches of the other. -/
theorem comparable (h₁ : Delivered positional capacity stream ending findings matches₁ ending₁)
    (h₂ : Delivered positional' capacity stream ending findings matches₂ ending₂) :
    matches₁ <+: matches₂ ∨ matches₂ <+: matches₁ := by
  rcases Nat.le_total matches₁.length matches₂.length with hle | hle
  · exact Or.inl (List.prefix_of_prefix_length_le h₁.isPrefix h₂.isPrefix hle)
  · exact Or.inr (List.prefix_of_prefix_length_le h₂.isPrefix h₁.isPrefix hle)

end Delivered

/-- The receiver that collects matches, the last one first. -/
def collectMatches {σ : Type} : Receiver (List Match) σ := fun found m c =>
  (.ok (), m :: found, c.source)

/-- The cursor between two turns of a pass: it stands right after the last match, and `current`
    begins no more than its capacity later. -/
structure Ready {σ : Type} (R : σ → Nat → Bytes → Prop) (stream : Bytes) (position capacity : Nat)
    (c : Cursor σ) : Prop where
  follows : c.Follows R stream
  delivered : c.delivered = position
  lastMatchEnd : c.lastMatchEnd = position
  capacity_eq : c.capacity = capacity
  held : c.currentStart ≤ position + capacity

/-- What is found from a place of the stream on ends at one. -/
theorem Ready.place {σ : Type} {R : σ → Nat → Bytes → Prop} {stream : Bytes}
    {position capacity : Nat} {c : Cursor σ} (h : Ready R stream position capacity c) {e : Engine}
    (hm : e.matcher.Confined) {f : Finding} (hf : Finds e stream position f) :
    Utf8.Place stream f.stop := by
  have hposition := h.follows.position
  rw [h.delivered] at hposition
  exact hf.place hm hposition

/-- The search through a ready cursor answers what the search through a tape of the rest of the
    stream does. -/
theorem Ready.findNext {σ : Type} [FiniteSource σ] {R : σ → Nat → Bytes → Prop} {positional : Bool}
    {stream : Bytes} {position capacity : Nat} {c : Cursor σ}
    (haccount : Account positional stream R) (h : Ready R stream position capacity c) {e : Engine}
    (hm : e.matcher.Confined) :
    ∃ calls c', e.findNext c = ((e.findNext (tapeFrom stream position)).1, c') ∧
      (e.findNext (tapeFrom stream position)).2 =
        Tape.after (Utf8.codepoints (stream.drop position)) calls ∧
      c.Reached R stream calls c' := by
  obtain ⟨calls, htape, -⟩ := findNext_tapeFrom hm stream position
  have hcalls := htape
  rw [← h.delivered] at hcalls
  obtain ⟨c', hsearch, hreached⟩ := findNext_cursor haccount h.follows e hcalls
  rw [h.delivered] at hsearch
  exact ⟨calls, c', hsearch, htape, hreached⟩

namespace Scan

variable {σ : Type} [FiniteSource σ] {R : σ → Nat → Bytes → Prop} {positional : Bool}
  {stream : Bytes} {e : Engine} {position capacity : Nat} {c c' c'' : Cursor σ} {f : Finding}

/-- The matches that a pass delivers, in order, and how it ends. -/
def outcome (s : Scan Engine σ) : List Match × Ending :=
  ((s.pass collectMatches []).2.1.reverse, (s.pass collectMatches []).1)

/-! ## One turn -/

/-- The answer of a search as a scan sees it. -/
theorem find_eq {answer : Except Failure (Option Span)} (h : e.findNext c = (answer, c')) :
    MatchEngine.find e c = (answer.map (·.map Span.location), e, c') := by
  show (Except.map _ (e.findNext c).1, e, (e.findNext c).2) = _
  rw [h]

theorem advance_none (h : e.findNext c = (.ok none, c')) :
    (Scan.mk e c).advance = (.ok none, ⟨e, c'⟩) := by
  rw [advance, find_eq h]
  rfl

theorem advance_error {failure : Failure} (h : e.findNext c = (.error failure, c')) :
    (Scan.mk e c).advance = (.error failure, ⟨e, c'⟩) := by
  rw [advance, find_eq h]
  rfl

/-- What is found is copied, or that fails. -/
theorem advance_some {location : Span} {answer : Except Failure Match}
    (h : e.findNext c = (.ok (some location), c')) (hspan : location.start ≤ location.stop)
    (hextract : c'.extract location.start (location.stop - location.start : Nat) =
      (answer, c'')) :
    (Scan.mk e c).advance =
      (answer.map fun found => some ⟨found, location.start = location.stop⟩, ⟨e, c''⟩) := by
  have hlength : (location.stop : Int) - location.start =
      ((location.stop - location.start : Nat) : Int) := by omega
  have hempty : ((location.start : Int) = location.stop) ↔ location.start = location.stop := by
    omega
  rw [advance, find_eq h]
  simp only [Except.map, Option.map_some, Span.location, hlength, hextract, hempty]
  cases answer with
  | error failure => rfl
  | ok found => rfl

/-- Where a cursor is when a search has found something: it has read the match, and `current` was
    moved no further than to the mark. -/
structure Found (R : σ → Nat → Bytes → Prop) (stream : Bytes) (position capacity : Nat)
    (f : Finding) (location : Span) (c : Cursor σ) : Prop where
  start_eq : f.start = position + location.start
  stop_eq : f.stop = position + location.stop
  follows : c.Follows R stream
  lastMatchEnd : c.lastMatchEnd = position
  capacity_eq : c.capacity = capacity
  read : f.stop ≤ c.delivered
  start_le : c.currentStart ≤ max (position + capacity) f.mark

omit [FiniteSource σ] in
/-- A stretch of what a search has read. -/
theorem found_of_reached (h : Ready R stream position capacity c) {calls : Nat} {t : Span}
    (hreached : c.Reached R stream calls c') (hread : t.stop ≤ calls) {location : Span}
    (hlocation : location = t.inBytes (Utf8.codepoints (stream.drop position))) :
    Found R stream position capacity ⟨position + location.start, position + location.stop,
      position + width ((Utf8.codepoints (stream.drop position)).take (calls - 1))⟩ location
      c' := by
  have hdelivered := hreached.delivered
  have hstart := hreached.start_le
  have hheld := h.held
  rw [h.delivered] at hdelivered hstart
  refine ⟨rfl, rfl, hreached.follows, hreached.lastMatchEnd.trans h.lastMatchEnd,
    hreached.capacity.trans h.capacity_eq, ?_, ?_⟩
  · have hle := width_take_le (w := Utf8.codepoints (stream.drop position)) hread
    rw [hdelivered, hlocation]
    exact Nat.add_le_add_left hle position
  · show _ ≤ max _ (position + width _)
    omega

/-- What a search through a ready cursor has found is a stretch between two places of the stream. -/
theorem found_of_findNext (haccount : Account positional stream R) (hm : e.matcher.Confined)
    (h : Ready R stream position capacity c) {location : Span}
    (hfind : e.findNext c = (.ok (some location), c')) :
    ∃ f, Found R stream position capacity f location c' ∧ f.start ≤ f.stop ∧
      Utf8.Place stream f.stop := by
  obtain ⟨calls₁, c₁, hsearch, htape₁, hreached⟩ := h.findNext haccount hm
  obtain ⟨calls₂, htape₂, hanswer⟩ := findNext_tapeFrom hm stream position
  obtain rfl : calls₁ = calls₂ := congrArg Tape.calls (htape₁.symm.trans htape₂)
  rw [hfind] at hsearch
  obtain ⟨hfound, rfl⟩ := Prod.ext_iff.mp hsearch
  obtain ⟨t, horder, hread, hlocation⟩ := hanswer location hfound.symm
  have hplace := h.follows.position
  rw [h.delivered] at hplace
  refine ⟨_, found_of_reached h hreached hread hlocation, ?_, ?_⟩
  · rw [hlocation]
    exact Nat.add_le_add_left (width_take_le horder) position
  · rw [hlocation]
    exact hplace.add t.stop

theorem find_finds (haccount : Account positional stream R) (hm : e.matcher.Confined)
    (h : Ready R stream position capacity c) (hf : Finds e stream position f) :
    ∃ location c', e.findNext c = (.ok (some location), c') ∧
      Found R stream position capacity f location c' := by
  obtain ⟨location, calls, hfind, rfl⟩ := hf
  obtain ⟨calls₁, htape₁, hanswer⟩ := findNext_tapeFrom hm stream position
  obtain ⟨t, -, hread, hlocation⟩ := hanswer location (congrArg Prod.fst hfind)
  obtain ⟨calls₂, c₁, hsearch, htape₂, hreached⟩ := h.findNext haccount hm
  rw [hfind] at htape₁ htape₂ hsearch
  obtain rfl : calls = calls₁ := congrArg Tape.calls htape₁
  obtain rfl : calls = calls₂ := congrArg Tape.calls htape₂
  exact ⟨location, c₁, hsearch, found_of_reached h hreached hread hlocation⟩

/-- What was found can be copied, unless the window has lost what it has to hold for that.  Then the
    finding is late. -/
theorem Found.extract_cases (haccount : Account positional stream R) (hspan : f.start ≤ f.stop)
    (hplace : Utf8.Place stream f.stop) {location : Span}
    (h : Found R stream position capacity f location c) :
    (∃ c', c.extract location.start (location.stop - location.start : Nat) =
        (.ok (f.toMatch stream), c') ∧ Ready R stream f.stop capacity c') ∨
    (f.Late positional capacity ∧
      Cursor.Follows.needed positional f.start f.stop + c.capacity < c.currentStart ∧
      ∃ c', c.extract location.start (location.stop - location.start : Nat) =
        (.error (Cursor.Follows.lossOf positional c f.start f.stop), c')) := by
  have hstart := h.start_eq
  have hstop := h.stop_eq
  have hcapacity := h.capacity_eq
  have hmoved := h.start_le
  have hoffset : c.lastMatchEnd + location.start = f.start := by
    rw [h.lastMatchEnd, hstart]
  have hsize : location.stop - location.start = f.stop - f.start := by omega
  have hlength : f.start + (location.stop - location.start) = f.stop := by omega
  have hneeded : f.start ≤ Cursor.Follows.needed positional f.start f.stop ∧
      Cursor.Follows.needed positional f.start f.stop ≤ f.stop := by
    rw [Cursor.Follows.needed]
    split <;> omega
  by_cases hheld : c.currentStart ≤
      Cursor.Follows.needed positional f.start f.stop + c.capacity
  · obtain ⟨c₂, hextract, hplaced, hend⟩ :=
      h.follows.extract_ok haccount hoffset hlength h.read hplace hheld
    rw [hsize] at hextract ⊢
    refine Or.inl ⟨c₂, hextract, hplaced.follows, hplaced.delivered, hend,
      hplaced.capacity.trans hcapacity, ?_⟩
    rw [hplaced.start_eq]
    omega
  · have hlost := Nat.lt_of_not_le hheld
    refine Or.inr ⟨?_, hlost, h.follows.extract_lost haccount hoffset hlength h.read hlost⟩
    -- `current` did not begin so late before the search, so the search has moved it
    rw [Finding.Late]
    omega

/-- What was found can be copied, unless it is late. -/
theorem Found.extract (haccount : Account positional stream R) (hspan : f.start ≤ f.stop)
    (hplace : Utf8.Place stream f.stop) {location : Span}
    (h : Found R stream position capacity f location c) :
    (∃ c', c.extract location.start (location.stop - location.start : Nat) =
        (.ok (f.toMatch stream), c') ∧ Ready R stream f.stop capacity c') ∨
    (f.Late positional capacity ∧ ∃ failure c',
      c.extract location.start (location.stop - location.start : Nat) = (.error failure, c') ∧
        (positional = false → failure.kind = .outOfWindow)) := by
  rcases h.extract_cases haccount hspan hplace with hcopied | ⟨hlate, -, c', hextract⟩
  · exact Or.inl hcopied
  · refine Or.inr ⟨hlate, _, c', hextract, ?_⟩
    rintro rfl
    rfl

/-- What was found is delivered, unless it is late. -/
theorem Found.advance (haccount : Account positional stream R) (hspan : f.start ≤ f.stop)
    (hplace : Utf8.Place stream f.stop) {location : Span}
    (h : Found R stream position capacity f location c')
    (hfind : e.findNext c = (.ok (some location), c')) :
    (∃ c'', (Scan.mk e c).advance =
        (.ok (some ⟨f.toMatch stream, f.start = f.stop⟩), ⟨e, c''⟩) ∧
      Ready R stream f.stop capacity c'') ∨
    (f.Late positional capacity ∧ ∃ failure s',
      (Scan.mk e c).advance = (.error failure, s') ∧
        (positional = false → failure.kind = .outOfWindow)) := by
  have hstart := h.start_eq
  have hstop := h.stop_eq
  rcases h.extract haccount hspan hplace with ⟨c₂, hextract, hready⟩ |
    ⟨hlate, failure, c₂, hextract, hkind⟩
  · have hempty : decide (location.start = location.stop) = decide (f.start = f.stop) := by
      rw [decide_eq_decide]
      omega
    refine Or.inl ⟨c₂, ?_, hready⟩
    rw [advance_some hfind (by omega) hextract, hempty]
    rfl
  · exact Or.inr ⟨hlate, failure, ⟨e, c₂⟩, advance_some hfind (by omega) hextract, hkind⟩

/-- A finding is delivered, unless it is late. -/
theorem advance_finds (haccount : Account positional stream R) (hm : e.matcher.Confined)
    (h : Ready R stream position capacity c) (hf : Finds e stream position f) :
    (∃ c', (Scan.mk e c).advance =
        (.ok (some ⟨f.toMatch stream, f.start = f.stop⟩), ⟨e, c'⟩) ∧
      Ready R stream f.stop capacity c') ∨
    (f.Late positional capacity ∧ ∃ failure s',
      (Scan.mk e c).advance = (.error failure, s') ∧
        (positional = false → failure.kind = .outOfWindow)) := by
  obtain ⟨location, c₁, hsearch, hfound⟩ := find_finds haccount hm h hf
  exact hfound.advance haccount (hf.bounds hm).2 (h.place hm hf) hsearch

/-- Between two matches a pass steps over a code point if the last match is empty.  At the end of
    the stream there is none. -/
theorem stepPast_empty (haccount : Account positional stream R)
    (h : Ready R stream position capacity c) (found : Match) :
    ∃ c', (Scan.mk e c).stepPast ⟨found, true⟩ =
        (.ok (Utf8.decode (stream.drop position)).isSome, ⟨e, c'⟩) ∧
      (∀ point, Utf8.decode (stream.drop position) = some point →
        Ready R stream (position + point.size) capacity c') ∧
      (Utf8.decode (stream.drop position) = none →
        c'.Follows R stream ∧ stream.length ≤ c'.delivered) := by
  obtain ⟨c₁, hskip, hfollows, hcapacity, hstart, hmoved, hstays⟩ := h.follows.skip haccount
  have hheld := h.held
  rw [h.delivered] at hskip hmoved hstart hstays
  refine ⟨c₁, ?_, fun point hpoint => ?_, fun hend => ⟨hfollows, ?_⟩⟩
  · rw [stepPast, if_pos rfl, hskip]
  · obtain ⟨hdelivered, hend⟩ := hmoved point hpoint
    exact ⟨hfollows, hdelivered, hend, hcapacity.trans h.capacity_eq, by omega⟩
  · rw [hstays hend]
    exact List.drop_eq_nil_iff.mp (Utf8.decode_eq_none hend)

/-! ## Whole passes -/

/-- A turn that delivers a match; another one follows. -/
theorem run_on {count : Nat} {d : Delivery} {s s' : Scan Engine σ}
    (hadvance : (Scan.mk e c).advance = (.ok (some d), s)) (hcount : count ≠ 0)
    (hstep : s.stepPast d = (.ok true, s')) (found : List Match) :
    (Scan.mk e c).run collectMatches (count + 1) found =
      s'.run collectMatches count (d.found :: found) := by
  have hstep' : ({ s with cursor := { s.cursor with source := s.cursor.source } } :
      Scan Engine σ).stepPast d = (.ok true, s') := hstep
  rw [run, hadvance]
  simp only [collectMatches, if_neg hcount, hstep']

/-- A turn that delivers a match; there is nothing behind it. -/
theorem run_last {count : Nat} {d : Delivery} {s s' : Scan Engine σ}
    (hadvance : (Scan.mk e c).advance = (.ok (some d), s)) (hcount : count ≠ 0)
    (hstep : s.stepPast d = (.ok false, s')) (found : List Match) :
    (Scan.mk e c).run collectMatches (count + 1) found = (.finished, d.found :: found, s') := by
  have hstep' : ({ s with cursor := { s.cursor with source := s.cursor.source } } :
      Scan Engine σ).stepPast d = (.ok false, s') := hstep
  rw [run, hadvance]
  simp only [collectMatches, if_neg hcount, hstep']

/-- A turn that delivers a match; there is no stepping on from it. -/
theorem run_stuck {count : Nat} {d : Delivery} {failure : Failure} {s s' : Scan Engine σ}
    (hadvance : (Scan.mk e c).advance = (.ok (some d), s)) (hcount : count ≠ 0)
    (hstep : s.stepPast d = (.error failure, s')) (found : List Match) :
    (Scan.mk e c).run collectMatches (count + 1) found =
      (.failed failure, d.found :: found, s') := by
  have hstep' : ({ s with cursor := { s.cursor with source := s.cursor.source } } :
      Scan Engine σ).stepPast d = (.error failure, s') := hstep
  rw [run, hadvance]
  simp only [collectMatches, if_neg hcount, hstep']

theorem run_error {count : Nat} {failure : Failure} {s : Scan Engine σ}
    (hadvance : (Scan.mk e c).advance = (.error failure, s)) (found : List Match) :
    (Scan.mk e c).run collectMatches (count + 1) found = (.failed failure, found, s) := by
  rw [run, hadvance]

/-- A pass that may deliver more matches than there are delivers its course. -/
theorem delivered_run (haccount : Account positional stream R) (hm : e.matcher.Confined)
    {findings : List Finding} {ending : Ending}
    (hcourse : Course e stream position findings ending)
    (h : Ready R stream position capacity c) {count : Nat} (hcount : findings.length < count)
    (found : List Match) :
    ∃ matches_ ending' s', (Scan.mk e c).run collectMatches count found =
        (ending', matches_.reverse ++ found, s') ∧
      Delivered positional capacity stream ending findings matches_ ending' := by
  -- a finding takes one turn, so the count stays ahead of what is left of the course
  obtain ⟨count, rfl⟩ := Nat.exists_eq_add_one_of_ne_zero (Nat.ne_zero_of_lt hcount)
  induction hcourse generalizing c count found with
  | finished hnone =>
    obtain ⟨-, c₁, hsearch, -⟩ := h.findNext haccount hm
    rw [hnone] at hsearch
    refine ⟨[], .finished, ⟨e, c₁⟩, ?_, .done⟩
    rw [run, advance_none hsearch]
    rfl
  | refused hrefused =>
    rename_i failure
    obtain ⟨-, c₁, hsearch, -⟩ := h.findNext haccount hm
    rw [hrefused] at hsearch
    exact ⟨[], .failed failure, ⟨e, c₁⟩, run_error (advance_error hsearch) found, .done⟩
  | last hfinds hempty hend =>
    rename_i position f
    rw [List.length_singleton] at hcount
    rcases advance_finds haccount hm h hfinds with ⟨c₁, hadvance, hready⟩ |
      ⟨hlate, failure, s', hadvance, hkind⟩
    · obtain ⟨c₂, hstep, -⟩ := stepPast_empty (e := e) haccount hready (f.toMatch stream)
      rw [hend] at hstep
      rw [decide_eq_true hempty] at hadvance
      exact ⟨[f.toMatch stream], .finished, ⟨e, c₂⟩,
        run_last hadvance (by omega) hstep found, .next .done⟩
    · exact ⟨[], .failed failure, s', run_error hadvance found, .lost hlate hkind⟩
  | empty hfinds hempty hpoint rest ih =>
    rename_i position f point findings ending
    rw [List.length_cons] at hcount
    rcases advance_finds haccount hm h hfinds with ⟨c₁, hadvance, hready⟩ |
      ⟨hlate, failure, s', hadvance, hkind⟩
    · obtain ⟨c₂, hstep, hready', -⟩ :=
        stepPast_empty (e := e) haccount hready (f.toMatch stream)
      rw [hpoint] at hstep
      rw [decide_eq_true hempty] at hadvance
      obtain ⟨count, rfl⟩ := Nat.exists_eq_add_one_of_ne_zero (n := count) (by omega)
      obtain ⟨matches_, ending', s', hrun, hdelivered⟩ :=
        ih (hready' point hpoint) (f.toMatch stream :: found) count (by omega)
      refine ⟨f.toMatch stream :: matches_, ending', s', ?_, .next hdelivered⟩
      rw [run_on hadvance (Nat.succ_ne_zero count) hstep, hrun, List.reverse_cons,
        List.append_assoc]
      rfl
    · exact ⟨[], .failed failure, s', run_error hadvance found, .lost hlate hkind⟩
  | full hfinds hnonempty rest ih =>
    rename_i position f findings ending
    rw [List.length_cons] at hcount
    rcases advance_finds haccount hm h hfinds with ⟨c₁, hadvance, hready⟩ |
      ⟨hlate, failure, s', hadvance, hkind⟩
    · rw [decide_eq_false (Nat.ne_of_lt hnonempty)] at hadvance
      obtain ⟨count, rfl⟩ := Nat.exists_eq_add_one_of_ne_zero (n := count) (by omega)
      obtain ⟨matches_, ending', s', hrun, hdelivered⟩ :=
        ih hready (f.toMatch stream :: found) count (by omega)
      refine ⟨f.toMatch stream :: matches_, ending', s', ?_, .next hdelivered⟩
      rw [run_on hadvance (Nat.succ_ne_zero count) rfl, hrun, List.reverse_cons,
        List.append_assoc]
      rfl
    · exact ⟨[], .failed failure, s', run_error hadvance found, .lost hlate hkind⟩

/-- The capacity of a window of the size that was asked for. -/
def windowSize (size : Int) : Nat := max size.toNat Cursor.minCapacity

/-- The engine of a scan with a window of the size that was asked for. -/
def engineOf (m : Matcher) (size : Int) : Engine := .ofMatcher m (windowSize size : Nat)

theorem window_engineOf (m : Matcher) (size : Int) :
    (engineOf m size).window = windowSize size := by
  show max (Int.toNat (windowSize size : Nat)) Cursor.minCapacity = windowSize size
  rw [Int.toNat_natCast, windowSize]
  omega

theorem minCapacity_le_window (m : Matcher) (size : Int) :
    Cursor.minCapacity ≤ (engineOf m size).window := by
  rw [window_engineOf]
  exact Nat.le_max_right _ _

omit [FiniteSource σ] in
/-- The cursor at the start of a source is ready. -/
theorem ready_ofSource {source : σ} (hsource : R source 0 stream) (size : Int) :
    Ready R stream 0 (windowSize size) (.ofSource source size) where
  follows := Cursor.follows_ofSource hsource size
  delivered := rfl
  lastMatchEnd := rfl
  capacity_eq := rfl
  held := Nat.zero_le _

/-- A pass to the end may deliver more matches than there are findings. -/
theorem length_lt_bound {Over : σ → Prop} {last : Option Failure} (hsupply : Supply R Over last)
    (m : Matcher) (size : Int) {source : σ} (hserves : R source 0 stream)
    {findings : List Finding} (hlength : findings.length ≤ stream.length + 1) :
    findings.length < (ofMatcher m source size).bound := by
  have hleft := hsupply.length_le_remaining hserves
  show findings.length < 0 + FiniteSource.remaining source + 2
  omega

/-- What a scan delivers, when its source delivers the stream. -/
theorem delivered_outcome {m : Matcher} (hm : m.Confined) (size : Int) {source : σ}
    (hsource : WellBehaved positional stream source) {findings : List Finding} {ending : Ending}
    (hcourse : Course (engineOf m size) stream 0 findings ending)
    (hlength : findings.length ≤ stream.length + 1) :
    Delivered positional (windowSize size) stream ending findings
      (ofMatcher m source size).outcome.1 (ofMatcher m source size).outcome.2 := by
  obtain ⟨R, haccount, hserves⟩ := hsource
  have hbound := length_lt_bound haccount.supply m size hserves hlength
  obtain ⟨matches_, ending', s', hrun, hdelivered⟩ :=
    delivered_run haccount hm hcourse (ready_ofSource hserves size) hbound []
  have hpass : (ofMatcher m source size).pass collectMatches [] =
      (ending', matches_.reverse ++ [], s') := hrun
  rw [outcome, hpass, List.append_nil, List.reverse_reverse]
  exact hdelivered

/-- What a scan delivers does not depend on how the stream arrives, up to the first match that is
    late: what two scans make of one stream follows one course. -/
theorem outcome_agree {m : Matcher} (hm : m.Searches) (size : Int) {τ : Type} [FiniteSource τ]
    {positional' : Bool} {source : σ} {other : τ} (hsource : WellBehaved positional stream source)
    (hother : WellBehaved positional' stream other) :
    ∃ findings ending, Course (engineOf m size) stream 0 findings ending ∧
      Delivered positional (windowSize size) stream ending findings
        (ofMatcher m source size).outcome.1 (ofMatcher m source size).outcome.2 ∧
      Delivered positional' (windowSize size) stream ending findings
        (ofMatcher m other size).outcome.1 (ofMatcher m other size).outcome.2 ∧
      ((ofMatcher m source size).outcome.1 <+: (ofMatcher m other size).outcome.1 ∨
        (ofMatcher m other size).outcome.1 <+: (ofMatcher m source size).outcome.1) ∧
      ((∀ f ∈ findings, ¬ f.Late positional (windowSize size) ∧
          ¬ f.Late positional' (windowSize size)) →
        (ofMatcher m source size).outcome = (ofMatcher m other size).outcome) := by
  obtain ⟨findings, ending, hcourse, hlength⟩ :=
    exists_course (e := engineOf m size) hm.confined (Utf8.place_zero stream)
  have hdelivered := delivered_outcome hm.confined size hsource hcourse hlength
  have hdelivered' := delivered_outcome hm.confined size hother hcourse hlength
  refine ⟨findings, ending, hcourse, hdelivered, hdelivered', hdelivered.comparable hdelivered',
    fun hnone => ?_⟩
  obtain ⟨hmatches, hending⟩ := hdelivered.complete fun f hf => (hnone f hf).1
  obtain ⟨hmatches', hending'⟩ := hdelivered'.complete fun f hf => (hnone f hf).2
  exact Prod.ext (hmatches.trans hmatches'.symm) (hending.trans hending'.symm)

/-- The word `ab` in a stream that arrives byte by byte, or at once with positional reads. -/
theorem outcome_agree_word :
    (∃ findings ending,
      Course (engineOf (.literal ['a', 'b']) 16) [99, 97, 98, 97] 0 findings ending ∧
      Delivered false 16 [99, 97, 98, 97] ending findings
        (ofMatcher (.literal ['a', 'b']) (Buffer.ofPayload [99, 97, 98, 97] (some 1) false)
          16).outcome.1
        (ofMatcher (.literal ['a', 'b']) (Buffer.ofPayload [99, 97, 98, 97] (some 1) false)
          16).outcome.2 ∧
      Delivered true 16 [99, 97, 98, 97] ending findings
        (ofMatcher (.literal ['a', 'b']) (Buffer.ofPayload [99, 97, 98, 97] none true)
          16).outcome.1
        (ofMatcher (.literal ['a', 'b']) (Buffer.ofPayload [99, 97, 98, 97] none true)
          16).outcome.2) ∧
    (ofMatcher (.literal ['a', 'b']) (Buffer.ofPayload [99, 97, 98, 97] (some 1) false)
      16).outcome = ([⟨1, [97, 98]⟩], .finished) := by
  have hbytewise : WellBehaved false [99, 97, 98, 97]
      (Buffer.ofPayload [99, 97, 98, 97] (some 1) false) :=
    Buffer.wellBehaved (by rintro _ ⟨⟩; decide) false _
  have hatOnce : WellBehaved true [99, 97, 98, 97]
      (Buffer.ofPayload [99, 97, 98, 97] none true) := Buffer.wellBehaved (by rintro _ ⟨⟩) true _
  obtain ⟨findings, ending, hcourse, hdelivered, hdelivered', -⟩ :=
    outcome_agree (Matcher.lawful_literal ['a', 'b']).toSearches 16 hbytewise hatOnce
  exact ⟨⟨findings, ending, hcourse, hdelivered, hdelivered'⟩, by decide +kernel⟩

/-- A match of seventeen letters, longer than the window.  When the stream arrives at once, the
    window holds it to the end; when it arrives byte by byte, its first letters are gone. -/
theorem outcome_depends_on_arrival :
    WellBehaved false (List.replicate 17 97 ++ [98, 98])
      (Buffer.ofPayload (List.replicate 17 97 ++ [98, 98]) none false) ∧
    WellBehaved false (List.replicate 17 97 ++ [98, 98])
      (Buffer.ofPayload (List.replicate 17 97 ++ [98, 98]) (some 1) false) ∧
    (ofMatcher (Pattern.matcher ⟨.repeated ⟨17, some 17, .greedy⟩ (.single (.code 97)), {}⟩)
      (Buffer.ofPayload (List.replicate 17 97 ++ [98, 98]) none false) 16).outcome =
        ([⟨0, List.replicate 17 97⟩], .finished) ∧
    (ofMatcher (Pattern.matcher ⟨.repeated ⟨17, some 17, .greedy⟩ (.single (.code 97)), {}⟩)
      (Buffer.ofPayload (List.replicate 17 97 ++ [98, 98]) (some 1) false) 16).outcome =
        ([], .failed (.outsideWindow 0 1 18 32)) := by
  refine ⟨Buffer.wellBehaved (by rintro _ ⟨⟩) false _, ?_, by decide +kernel, by decide +kernel⟩
  exact Buffer.wellBehaved (by rintro _ ⟨⟩; decide) false _

end Scan

end StreamScan

import Mathlib.Control.Monad.Basic
import StreamScan.Proofs.Engine.Timely
import StreamScan.Proofs.Scan.Passes

/-!
# Searches that stall

When a scan has found a match, it copies the match out of its window, and the window holds the match
unless the search has read on for more than a window behind the start of it.  A search reads on
carefully as long as its oldest open place is young.  It goes further only when it has *stalled*:
some place at the start of the match, or before it, was still open although a window of text lay
behind it.  Such a place need not belong to a long match, or to any: it only has to wait for text
that does not come, and a short match behind it waits with it.

* **`Engine.Overdue`**, **`Engine.Stalled`** — a place that waits for too long, and a search that
  had one before its last turn.
* **`Turns.punctual`** — how far a search has read when it answers, by induction over its turns.
* **`Scan.Between`** — the states in which a scan looks for its next match.
* **`Scan.extract_or_stalled`** — in each of them what is found can be copied, unless the search has
  stalled.
-/

namespace StreamScan

/-! ## How far a search reads -/

namespace Engine

/-- When so many code points have been read, a place is still open in what the search holds of them,
    and a window of text lies behind it. -/
structure Overdue (e : Engine) (w : List Codepoint) (n place : Nat) : Prop where
  lt : place < n
  le : n ≤ w.length
  isOpen : ∃ cut, Leaves cut place ∧
    ((e.past cut).matcher.attempt (letters (w.take n)) place).isOpen = true
  old : e.window ≤ aged w n place

/-- Before the last turn of a search, a place was overdue that is not behind the given one. -/
def Stalled (e : Engine) (w : List Codepoint) (place calls : Nat) : Prop :=
  ∃ n keep, keep ≤ place ∧ e.Overdue w n keep ∧ n < calls ∧ calls ≤ n + e.step

variable {e : Engine} {w : List Codepoint} {n cut keep : Nat}

/-- In its last turn a search reads no further than a window behind the oldest place, unless that
    place was overdue. -/
theorem last_turn (hsizes : ∀ c ∈ w, c.size ≤ Utf8.maxLength) (hkeep : keep ≤ n)
    (hoverdue : e.window ≤ aged w n keep → e.Overdue w n keep) {place calls : Nat}
    (hplace : keep ≤ place) (hcalls : n < calls) (hpace : calls ≤ n + e.pace (aged w n keep)) :
    width (w.take (calls - 1)) ≤ width (w.take place) + e.window ∨ e.Stalled w place calls := by
  by_cases hyoung : aged w n keep < e.window
  · obtain ⟨hreach, -⟩ := reach_of_lt hsizes hkeep hyoung rfl
    have hread : width (w.take (calls - 1)) ≤
        width (w.take (n + e.pace (aged w n keep) - 1)) := width_take_le (by omega)
    have hbegin := width_take_le (w := w) hplace
    exact Or.inl (by omega)
  · have hold := Nat.le_of_not_lt hyoung
    rw [pace_of_le hold] at hpace
    exact Or.inr ⟨n, keep, hplace, hoverdue hold, hcalls, hpace⟩

/-- A search answers with a location before it has read on for more than a window behind its start,
    or else it has stalled. -/
theorem Turns.punctual (hm : e.matcher.Searches) (hwindow : 0 < e.window)
    (hsizes : ∀ c ∈ w, c.size ≤ Utf8.maxLength) {answer : Except Failure (Option Span)}
    {calls : Nat} (h : Turns e w n cut keep answer calls) (hkeep : keep ≤ n) (hn : n ≤ w.length)
    (hcut : Leaves cut keep) (hoverdue : e.window ≤ aged w n keep → e.Overdue w n keep)
    {location : Span} (hanswer : answer = .ok (some location)) :
    ∃ t : Span, location = t.inBytes w ∧
      (width (w.take (calls - 1)) ≤ width (w.take t.start) + e.window ∨
        e.Stalled w t.start calls) := by
  induction h with
  | ended hend =>
    obtain ⟨t, ht, rfl⟩ := Option.map_eq_some_iff.mp (Except.ok.inj hanswer)
    obtain ⟨hstart, -⟩ := (hm.past _).search_some ht
    exact ⟨t, rfl, last_turn hsizes hkeep hoverdue hstart (Nat.lt_succ_of_le hn) hend⟩
  | found hnext hle hsettles _ =>
    obtain rfl := Option.some.inj (Except.ok.inj hanswer)
    obtain ⟨hstart, -⟩ := hsettles.bounds (hm.past _)
    exact ⟨_, rfl, last_turn hsizes hkeep hoverdue hstart (e.lt_of_pace hnext)
      (Nat.le_of_eq hnext)⟩
  | refused _ _ _ => exact nomatch hanswer
  | again hnext hle hwaits _ ih =>
    rename_i n cut keep n' rest calls answer _
    have hfrom := hwaits.le
    have hend := hwaits.le_length
    have hlength : (w.take n').length = n' := by rw [List.length_take, Nat.min_eq_left hle]
    rw [hlength] at hend
    refine ih hend hle (hcut.discard hfrom) (fun hold => ?_) hanswer
    -- a place with a window behind it is not the end of what was read, so it is open
    have hlt : rest < n' := by
      refine Nat.lt_of_le_of_ne hend fun hsame => ?_
      rw [hsame, aged, Nat.sub_self] at hold
      omega
    exact ⟨hlt, hle, ⟨cut, hcut.mono hfrom, hwaits.isOpen (by rw [hlength]; exact hlt)⟩, hold⟩

end Engine

/-- A finding of a stream is late only if its search has stalled. -/
theorem Finds.stalled {e : Engine} (hm : e.matcher.Searches) (hwindow : 0 < e.window)
    {stream : Bytes} {position : Nat} {f : Finding} (hf : Finds e stream position f)
    (hlate : f.Late false e.window) :
    ∃ place calls,
      f.start = position + width ((Utf8.codepoints (stream.drop position)).take place) ∧
        e.Stalled (Utf8.codepoints (stream.drop position)) place calls := by
  obtain ⟨location, calls, hfind, rfl⟩ := hf
  obtain ⟨calls', hturns, htape⟩ := Engine.turns_findNext (e := e) hm
    (Utf8.codepoints (stream.drop position))
  rw [tapeFrom] at hfind
  rw [hfind] at htape hturns
  have hcalls : calls = calls' := congrArg Tape.calls htape
  subst hcalls
  have hsizes := Utf8.sizes_of_codepoints (b := stream.drop position) rfl
  have hyoung : ¬ e.window ≤ aged (Utf8.codepoints (stream.drop position)) 0 0 := by
    rw [aged, Nat.sub_self]
    omega
  obtain ⟨t, rfl, hmark | hstalled⟩ := hturns.punctual hm hwindow (fun c hc => (hsizes c hc).2)
    (Nat.le_refl 0) (Nat.zero_le _) (.inl rfl) (fun hold => absurd hold hyoung) rfl
  · have hlate' : position + width ((Utf8.codepoints (stream.drop position)).take t.start) +
        e.window < position + width ((Utf8.codepoints (stream.drop position)).take (calls - 1)) :=
      hlate
    omega
  · exact ⟨t.start, calls, rfl, hstalled⟩

/-! ## The states of a scan -/

namespace Scan

variable {σ : Type} [FiniteSource σ]

/-- The states in which a scan that begins with `first` looks for its next match. -/
inductive Between (first : Scan Engine σ) : Scan Engine σ → Prop
  | start : Between first first
  | next {s s₁ s₂ : Scan Engine σ} {d : Delivery} (h : Between first s)
    (advance : s.advance = (.ok (some d), s₁)) (stepPast : s₁.stepPast d = (.ok true, s₂)) :
    Between first s₂

/-- A pass that may deliver enough matches comes through these states. -/
theorem Between.run {first s : Scan Engine σ} (h : Between first s) :
    ∃ count found, ∀ more, more ≠ 0 →
      first.run collectMatches (count + more) [] = s.run collectMatches more found := by
  induction h with
  | start =>
    refine ⟨0, [], fun more _ => ?_⟩
    rw [Nat.zero_add]
  | next _ hadvance hstep ih =>
    rename_i d _
    obtain ⟨count, found, hrun⟩ := ih
    refine ⟨count + 1, d.found :: found, fun more hmore => ?_⟩
    rw [Nat.add_assoc, Nat.add_comm 1, hrun (more + 1) (Nat.succ_ne_zero more)]
    exact run_on hadvance hmore hstep found

variable {R : σ → Nat → Bytes → Prop} {positional : Bool} {stream : Bytes} {e : Engine}
  {position capacity : Nat} {c c' : Cursor σ}

/-- What a search through a ready cursor has found. -/
theorem finds_of_findNext (haccount : Account positional stream R) (hm : e.matcher.Confined)
    (h : Ready R stream position capacity c) {location : Span}
    (hfind : e.findNext c = (.ok (some location), c')) :
    ∃ f, Finds e stream position f ∧ Found R stream position capacity f location c' := by
  obtain ⟨calls, c₁, hsearch, htape, -⟩ := h.findNext haccount hm
  rw [hfind] at hsearch
  have hanswer := congrArg Prod.fst hsearch
  simp only at hanswer
  have hfinds : Finds e stream position _ :=
    ⟨location, calls, Prod.ext hanswer.symm htape, rfl⟩
  obtain ⟨location', c₂, hfind', hfound⟩ := find_finds haccount hm h hfinds
  rw [hfind] at hfind'
  obtain ⟨hlocation, rfl⟩ := Prod.mk.inj hfind'
  obtain rfl := Option.some.inj (Except.ok.inj hlocation)
  exact ⟨_, hfinds, hfound⟩

/-- Behind a match that it has delivered a scan steps on, to a ready cursor or to the end of the
    stream. -/
theorem stepPast_cases (haccount : Account positional stream R) (hm : e.matcher.Confined)
    (h : Ready R stream position capacity c) {d : Delivery} {s : Scan Engine σ}
    (hadvance : (Scan.mk e c).advance = (.ok (some d), s)) :
    ∃ c', (s.stepPast d = (.ok true, ⟨e, c'⟩) ∧
        ∃ position', Ready R stream position' capacity c') ∨
      (s.stepPast d = (.ok false, ⟨e, c'⟩) ∧ c'.Follows R stream ∧
        stream.length ≤ c'.delivered) := by
  rcases hfind : e.findNext c with ⟨failure | _ | location, c₁⟩
  · rw [advance_error hfind] at hadvance
    exact nomatch hadvance
  · rw [advance_none hfind] at hadvance
    exact nomatch hadvance
  · obtain ⟨f, hfound, hspan, hplace⟩ := found_of_findNext haccount hm h hfind
    rcases hfound.advance haccount hspan hplace hfind with ⟨c₂, hdelivers, hready⟩ |
      ⟨-, failure, s', hfails, -⟩
    · rw [hdelivers] at hadvance
      obtain ⟨hd, rfl⟩ := Prod.mk.inj hadvance
      obtain rfl := Option.some.inj (Except.ok.inj hd)
      by_cases hempty : f.start = f.stop
      · obtain ⟨c₃, hskips, hready', hdrained⟩ :=
          stepPast_empty (e := e) haccount hready (f.toMatch stream)
        rw [decide_eq_true hempty, hskips]
        cases hpoint : Utf8.decode (stream.drop f.stop) with
        | none => exact ⟨c₃, Or.inr ⟨rfl, hdrained hpoint⟩⟩
        | some point => exact ⟨c₃, Or.inl ⟨rfl, f.stop + point.size, hready' point hpoint⟩⟩
      · rw [decide_eq_false hempty]
        exact ⟨c₂, Or.inl ⟨rfl, f.stop, hready⟩⟩
    · rw [hfails] at hadvance
      exact nomatch hadvance

theorem stepPast_of_advance (haccount : Account positional stream R) (hm : e.matcher.Confined)
    (h : Ready R stream position capacity c) {d : Delivery} {s : Scan Engine σ}
    (hadvance : (Scan.mk e c).advance = (.ok (some d), s)) :
    ∃ c', (s.stepPast d = (.ok true, ⟨e, c'⟩) ∧
        ∃ position', Ready R stream position' capacity c') ∨
      s.stepPast d = (.ok false, ⟨e, c'⟩) := by
  obtain ⟨c', hcases⟩ := stepPast_cases haccount hm h hadvance
  exact ⟨c', hcases.imp_right And.left⟩

/-- A turn of a scan that delivers leaves a ready cursor behind. -/
theorem ready_of_turn (haccount : Account positional stream R) (hm : e.matcher.Confined)
    (h : Ready R stream position capacity c) {d : Delivery} {s₁ s₂ : Scan Engine σ}
    (hadvance : (Scan.mk e c).advance = (.ok (some d), s₁))
    (hstep : s₁.stepPast d = (.ok true, s₂)) :
    ∃ position' c', s₂ = ⟨e, c'⟩ ∧ Ready R stream position' capacity c' := by
  obtain ⟨c', ⟨hgoes, position', hready⟩ | hends⟩ := stepPast_of_advance haccount hm h hadvance
  · rw [hgoes] at hstep
    obtain ⟨-, rfl⟩ := Prod.mk.inj hstep
    exact ⟨position', c', rfl, hready⟩
  · rw [hends] at hstep
    exact nomatch Except.ok.inj (Prod.mk.inj hstep).1

/-- Whenever a scan looks for its next match, its cursor is ready. -/
theorem Between.ready (haccount : Account positional stream R) {m : Matcher} (hm : m.Confined)
    {size : Int} {source : σ} (hserves : R source 0 stream) {s : Scan Engine σ}
    (h : Between (ofMatcher m source size) s) :
    ∃ position c, s = ⟨engineOf m size, c⟩ ∧ Ready R stream position (windowSize size) c := by
  induction h with
  | start => exact ⟨0, .ofSource source size, rfl, ready_ofSource hserves size⟩
  | next _ hadvance hstep ih =>
    obtain ⟨position, c, rfl, hready⟩ := ih
    exact ready_of_turn haccount hm hready hadvance hstep

/-! ## Copying what was found -/

/-- Whenever the search of a scan through a sequential source has found something, the scan copies
    just the bytes of the stream that were found, or else the search has stalled and the start of
    the match may be out of the window. -/
theorem extract_or_stalled {m : Matcher} (hm : m.Searches) (size : Int) {source : σ}
    (hsource : WellBehaved false stream source) {s : Scan Engine σ}
    (hs : Between (ofMatcher m source size) s) {location : Span} {c : Cursor σ}
    (hfind : s.engine.findNext s.cursor = (.ok (some location), c)) :
    (∃ c', c.extract location.start (location.stop - location.start : Nat) =
      (.ok (Span.toMatch stream
        ⟨s.cursor.delivered + location.start, s.cursor.delivered + location.stop⟩), c')) ∨
    ∃ place calls failure c',
      location.start =
        width ((Utf8.codepoints (stream.drop s.cursor.delivered)).take place) ∧
      s.engine.Stalled (Utf8.codepoints (stream.drop s.cursor.delivered)) place calls ∧
      c.extract location.start (location.stop - location.start : Nat) = (.error failure, c') ∧
      failure.kind = .outOfWindow := by
  obtain ⟨R, haccount, hserves⟩ := hsource
  obtain ⟨position, c₀, rfl, hready⟩ := hs.ready haccount hm.confined hserves
  obtain ⟨f, hf, hfound⟩ := finds_of_findNext haccount hm.confined hready hfind
  have hstart := hfound.start_eq
  have hstop := hfound.stop_eq
  have hposition : c₀.delivered = position := hready.delivered
  simp only [hposition]
  rcases hfound.extract haccount (hf.bounds hm.confined).2 (hready.place hm.confined hf) with
    ⟨c', hextract, -⟩ | ⟨hlate, failure, c', hextract, hkind⟩
  · refine Or.inl ⟨c', ?_⟩
    rw [hextract, Finding.toMatch, Finding.span, hstart, hstop]
  · rw [← window_engineOf m size] at hlate
    obtain ⟨place, calls, hplace, hstalled⟩ := hf.stalled hm
      (Nat.lt_of_lt_of_le (by decide) (minCapacity_le_window m size)) hlate
    exact Or.inr ⟨place, calls, failure, c', by omega, hstalled, hextract, hkind rfl⟩

/-- The word `ab` in a stream that arrives byte by byte.  It is found before anything is overdue, so
    it is copied. -/
theorem extract_or_stalled_word :
    ∃ c c' : Cursor Buffer, (engineOf (.literal ['a', 'b']) 16).findNext
          (Cursor.ofSource (Buffer.ofPayload [99, 97, 98, 97] (some 1) false) 16) =
        (.ok (some ⟨1, 3⟩), c) ∧
      c.extract (1 : Nat) (3 - 1 : Nat) = (.ok ⟨1, [97, 98]⟩, c') := by
  have hbytewise : WellBehaved false [99, 97, 98, 97]
      (Buffer.ofPayload [99, 97, 98, 97] (some 1) false) :=
    Buffer.wellBehaved (by rintro _ ⟨⟩; decide) false _
  have hfind : (engineOf (.literal ['a', 'b']) 16).findNext
      (Cursor.ofSource (Buffer.ofPayload [99, 97, 98, 97] (some 1) false) 16) =
        (.ok (some ⟨1, 3⟩), _) := Prod.ext (by decide +kernel) rfl
  rcases extract_or_stalled (Matcher.searches_literal ['a', 'b']) 16 hbytewise .start hfind with
    ⟨c', hextract⟩ | ⟨place, calls, failure, c', -, ⟨n, keep, -, hoverdue, -⟩, -, -⟩
  · exact ⟨_, c', hfind, hextract⟩
  · -- in a stream of four bytes no place is ever a window old
    have hold : 16 ≤ aged (Utf8.codepoints [99, 97, 98, 97]) n keep := hoverdue.old
    have hread := width_take_le_width (Utf8.codepoints [99, 97, 98, 97]) n
    rw [show width (Utf8.codepoints [99, 97, 98, 97]) = 4 by decide +kernel] at hread
    rw [aged] at hold
    omega

/-- The letter `c` behind a letter `a` that could begin a longer match.  That place stays open until
    the window has lost both, though the match is one byte long. -/
theorem extract_blocked :
    WellBehaved false (97 :: 99 :: List.replicate 24 45)
      (Buffer.ofPayload (97 :: 99 :: List.replicate 24 45) (some 1) false) ∧
    ∃ c : Cursor Buffer,
      (engineOf (Pattern.matcher ⟨.alt (.seq (.single (.code 97)) (.seq
          (.repeated ⟨20, some 20, .greedy⟩ (.single .any)) (.single (.code 122))))
        (.single (.code 99)), {}⟩) 16).findNext
          (Cursor.ofSource (Buffer.ofPayload (97 :: 99 :: List.replicate 24 45) (some 1) false)
            16) = (.ok (some ⟨1, 2⟩), c) ∧
      (c.extract (1 : Nat) (2 - 1 : Nat)).1 = .error (.outsideWindow 1 5 22 32) := by
  refine ⟨Buffer.wellBehaved (by rintro _ ⟨⟩; decide) false _, _,
    Prod.ext (by decide +kernel) rfl, by decide +kernel⟩

end Scan

end StreamScan

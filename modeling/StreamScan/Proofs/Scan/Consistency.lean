import StreamScan.Proofs.Scan.Stalling

/-!
# Scans that contradict themselves

A scan goes back to the end of each match that it has copied.  Copying a match out of the window
makes sure of the way back, since the window holds the end of the match if it holds the start.  A
source with positional reads gives the match without the window, and then nothing makes sure of it:
when the search has read on for more than a window behind the *end* of the match, going back is
refused, as if the scan had asked for a position that makes no sense.  For that the search must have
stalled, as for a match that is out of the window.

* **`Scan.Stranded`** — a match from which there is no way back.
* **`Scan.Between.run_failed`** — a pass fails in one of its turns.
* **`Scan.consistent`** — a failure of a pass is a match that is out of reach, or such a one.
-/

namespace StreamScan

namespace Scan

variable {σ : Type} [FiniteSource σ]

/-- A scan has found a match that ends before all that is held when the search is over, and there is
    no way back to the end of it. -/
structure Stranded (stream : Bytes) (s : Scan Engine σ) (location : Span) (c : Cursor σ) :
    Prop where
  find : s.engine.findNext s.cursor = (.ok (some location), c)
  stalled : ∃ place calls,
    location.start = width ((Utf8.codepoints (stream.drop s.cursor.delivered)).take place) ∧
      s.engine.Stalled (Utf8.codepoints (stream.drop s.cursor.delivered)) place calls
  lost : s.cursor.delivered + location.stop + c.capacity < c.currentStart
  refused : (c.extract location.start (location.stop - location.start : Nat)).1 =
    .error (.rewindTooFar (s.cursor.delivered + location.stop : Nat) c.lower)

variable {R : σ → Nat → Bytes → Prop} {positional : Bool} {stream : Bytes} {e : Engine}
  {position : Nat} {c c' : Cursor σ} {failure : Failure}

/-! ## One turn -/

/-- A search through a ready cursor fails only because a place was open for too long. -/
theorem kind_of_find (haccount : Account positional stream R) (hm : e.matcher.Searches)
    {capacity : Nat} (h : Ready R stream position capacity c)
    (hfind : e.findNext c = (.error failure, c')) : failure.kind = .outOfWindow := by
  obtain ⟨calls, c₁, hsearch, -, -⟩ := h.findNext haccount hm.confined
  obtain ⟨calls', hturns, -⟩ := Engine.turns_findNext hm (Utf8.codepoints (stream.drop position))
  rw [hfind] at hsearch
  exact hturns.kind_of_error (congrArg Prod.fst hsearch).symm

/-- A turn that begins with a ready cursor fails with a match that is out of reach, or with one from
    which there is no way back. -/
theorem failure_of_advance (haccount : Account positional stream R) (hm : e.matcher.Searches)
    (hwindow : 0 < e.window) (h : Ready R stream position e.window c) {s' : Scan Engine σ}
    (hadvance : (Scan.mk e c).advance = (.error failure, s')) :
    failure.kind = .outOfWindow ∨
      positional = true ∧ ∃ location c₁, Stranded stream ⟨e, c⟩ location c₁ ∧
        failure = .rewindTooFar (c.delivered + location.stop : Nat) c₁.lower := by
  rcases hfind : e.findNext c with ⟨refusal | _ | location, c₁⟩
  · rw [advance_error hfind] at hadvance
    obtain rfl := Except.error.inj (Prod.mk.inj hadvance).1
    exact Or.inl (kind_of_find haccount hm h hfind)
  · rw [advance_none hfind] at hadvance
    exact nomatch hadvance
  · obtain ⟨f, hf, hfound⟩ := finds_of_findNext haccount hm.confined h hfind
    obtain ⟨-, hspan⟩ := hf.bounds hm.confined
    have hstart := hfound.start_eq
    have hstop := hfound.stop_eq
    have hlocation : location.start ≤ location.stop := by omega
    rcases hfound.extract_cases haccount hspan (h.place hm.confined hf) with
      ⟨c₂, hextract, -⟩ | ⟨hlate, hlost, c₂, hextract⟩
    · rw [advance_some hfind hlocation hextract] at hadvance
      exact nomatch hadvance
    · rw [advance_some hfind hlocation hextract] at hadvance
      obtain rfl := Except.error.inj (Prod.mk.inj hadvance).1
      cases positional with
      | false => exact Or.inl rfl
      | true =>
        have hend : f.stop = c.delivered + location.stop := by rw [h.delivered, hstop]
        have hlate' : f.Late false e.window := by
          have hbehind : f.stop + e.window < f.mark := hlate
          show f.start + e.window < f.mark
          omega
        obtain ⟨place, calls, hplace, hstalled⟩ := hf.stalled hm hwindow hlate'
        rw [← h.delivered] at hplace hstalled
        have hopen : location.start =
            width ((Utf8.codepoints (stream.drop c.delivered)).take place) := by
          have hposition := h.delivered
          omega
        rw [hend] at hlost hextract ⊢
        exact Or.inr ⟨rfl, location, c₁, ⟨hfind, ⟨place, calls, hopen, hstalled⟩, hlost,
          congrArg Prod.fst hextract⟩, rfl⟩

/-! ## Whole passes -/

/-- A pass that fails does so in one of its turns: when it looks for a match and copies it, or when
    it steps on. -/
theorem Between.run_failed {first s s' : Scan Engine σ} (h : Between first s) {count : Nat}
    {found found' : List Match}
    (hrun : s.run collectMatches count found = (.failed failure, found', s')) :
    ∃ t t', Between first t ∧ (t.advance = (.error failure, t') ∨
      ∃ d t'', t.advance = (.ok (some d), t') ∧ t'.stepPast d = (.error failure, t'')) := by
  induction count generalizing s found with
  | zero => cases (Prod.mk.inj hrun).1
  | succ count ih =>
    rcases hadvance : s.advance with ⟨refusal | _ | d, t⟩
    · rw [Scan.run, hadvance] at hrun
      obtain rfl := Ending.failed.inj (Prod.mk.inj hrun).1
      exact ⟨s, t, h, Or.inl hadvance⟩
    · rw [Scan.run, hadvance] at hrun
      cases (Prod.mk.inj hrun).1
    · by_cases hcount : count = 0
      · rw [Scan.run, hadvance, hcount] at hrun
        cases (Prod.mk.inj hrun).1
      · rcases hstep : t.stepPast d with ⟨refusal | _ | _, t'⟩
        · rw [show s = ⟨s.engine, s.cursor⟩ from rfl, run_stuck hadvance hcount hstep found] at hrun
          obtain rfl := Ending.failed.inj (Prod.mk.inj hrun).1
          exact ⟨s, t, h, Or.inr ⟨d, t', hadvance, hstep⟩⟩
        · rw [show s = ⟨s.engine, s.cursor⟩ from rfl, run_last hadvance hcount hstep found] at hrun
          cases (Prod.mk.inj hrun).1
        · rw [show s = ⟨s.engine, s.cursor⟩ from rfl, run_on hadvance hcount hstep found] at hrun
          exact ih (h.next hadvance hstep) hrun

/-- When a pass over a well-behaved source fails, a match is out of reach.  Its failure is another
    only if the source has positional reads and the pass is stranded. -/
theorem consistent {m : Matcher} (hm : m.Searches) (size : Int) {source : σ}
    (hsource : WellBehaved positional stream source) {count : Nat} {found : List Match}
    {s' : Scan Engine σ}
    (hrun : (ofMatcher m source size).run collectMatches count [] = (.failed failure, found, s')) :
    failure.kind = .outOfWindow ∨
      positional = true ∧ ∃ s location c, Between (ofMatcher m source size) s ∧
        Stranded stream s location c ∧
        failure = .rewindTooFar (s.cursor.delivered + location.stop : Nat) c.lower := by
  obtain ⟨R, haccount, hserves⟩ := hsource
  obtain ⟨t, t', ht, hfails⟩ := Between.start.run_failed hrun
  obtain ⟨position, c, rfl, hready⟩ := ht.ready haccount hm.confined hserves
  rcases hfails with hadvance | ⟨d, t'', hadvance, hstep⟩
  · rw [← window_engineOf m size] at hready
    rcases failure_of_advance haccount hm
      (Nat.lt_of_lt_of_le (by decide) (minCapacity_le_window m size)) hready hadvance with
      hkind | ⟨hpositional, location, c₁, hstranded, hfailure⟩
    · exact Or.inl hkind
    · exact Or.inr ⟨hpositional, _, location, c₁, ht, hstranded, hfailure⟩
  · obtain ⟨c₁, ⟨hgoes, -⟩ | hends⟩ := stepPast_of_advance haccount hm.confined hready hadvance
    · rw [hgoes] at hstep
      exact nomatch (Prod.mk.inj hstep).1
    · rw [hends] at hstep
      exact nomatch (Prod.mk.inj hstep).1

/-- The letter `c`, or the letters `a` and `z` with twenty characters between them. -/
def shortOrLong : Pattern :=
  ⟨.alt (.seq (.single (.code 97)) (.seq (.repeated ⟨20, some 20, .greedy⟩ (.single .any))
    (.single (.code 122)))) (.single (.code 99)), {}⟩

/-- The letters `a` and `c` with a row of dashes behind them. -/
def dashes : Bytes := 97 :: 99 :: List.replicate 24 45

/-- The dashes arrive byte by byte, and can be read by position as well. -/
def positionalDashes : Buffer := .ofPayload dashes (some 1) true

theorem wellBehaved_positionalDashes : WellBehaved true dashes positionalDashes :=
  Buffer.wellBehaved (by rintro _ ⟨⟩; decide) true _

theorem run_positionalDashes :
    ((ofMatcher shortOrLong.matcher positionalDashes 16).run collectMatches 1 []).1 =
      .failed (.rewindTooFar 2 5) := by decide +kernel

/-- The place at the `a` stays open until the window has lost the `c` behind it.  The `c` is copied
    nevertheless, and there is no way back to its end. -/
theorem consistent_stranded :
    ∃ found s', (ofMatcher shortOrLong.matcher positionalDashes 16).run collectMatches 1 [] =
        (.failed (.rewindTooFar 2 5), found, s') ∧
      ∃ s location, ∃ c : Cursor Buffer, Stranded dashes s location c ∧
        Failure.rewindTooFar 2 5 =
          .rewindTooFar (s.cursor.delivered + location.stop : Nat) c.lower := by
  have hrun : (ofMatcher shortOrLong.matcher positionalDashes 16).run collectMatches 1 [] =
      (.failed (.rewindTooFar 2 5), _, _) := Prod.ext run_positionalDashes rfl
  refine ⟨_, _, hrun, ?_⟩
  rcases consistent shortOrLong.searches 16 wellBehaved_positionalDashes hrun with
    hkind | ⟨-, s, location, c, -, hstranded, hfailure⟩
  · exact nomatch hkind
  · exact ⟨s, location, c, hstranded, hfailure⟩

/-- The failure of that pass blames the scan itself. -/
theorem consistent_refuted : WellBehaved true dashes positionalDashes ∧
    ∃ failure, ((ofMatcher shortOrLong.matcher positionalDashes 16).run collectMatches 1 []).1 =
      .failed failure ∧ failure.kind = .bookkeeping :=
  ⟨wellBehaved_positionalDashes, .rewindTooFar 2 5, run_positionalDashes, rfl⟩

end Scan

end StreamScan

import StreamScan.Proofs.Cursor.Copying
import StreamScan.Proofs.Cursor.Forward
import StreamScan.Proofs.Engine.Reading
import StreamScan.Engine.Playback
import StreamScan.Scan

/-!
# The order of what a pass delivers

An engine may name any two offsets.  What keeps a pass in order is the cursor: offsets count from
the end of the last match, so no match begins before it; a location that is negative, reversed or
beyond what was read is refused; and after an empty match a code point is stepped over.  So a pass
goes forward through the stream with every match, whatever its engine makes of the text, and it
comes to an end.

Of the engine only this is asked: it reads code points, and does nothing else to the cursor.

* **`ReadsOnly`** — an engine that uses a cursor to read code points.
* **`Orderly`** — matches that follow one another in a stream, from a position on.
* **`run_orderly`** — what a pass delivers is orderly, by induction over its turns.
* **`readsOnly_engine`** — the engine that asks a matcher is such an engine.
* **`run_ordered`** — matches are stretches of the stream, in order and disjoint, and there are no
  more of them than there are places in the stream.
-/

namespace StreamScan

namespace Scan

/-- A match and the cursor at its delivery. -/
structure Moment (σ : Type) where
  found : Match
  cursor : Cursor σ

/-- The receiver that keeps every match together with the cursor at its delivery, the last one
    first. -/
def collectMoments {σ : Type} : Receiver (List (Moment σ)) σ := fun moments m c =>
  (.ok (), ⟨m, c⟩ :: moments, c.source)

/-- An engine that uses a cursor only to read code points: it leaves the cursor as a number of calls
    do, whatever it answers. -/
def ReadsOnly (ε σ : Type) [ByteSource σ] [MatchEngine ε (Cursor σ)] : Prop :=
  ∀ (e : ε) (c : Cursor σ), ∃ calls, (MatchEngine.find e c).2.2 = (c.nexts calls).2

/-! ## Matches in order -/

variable {σ : Type} {stream : Bytes} {position : Nat}

/-- What is true of a match at its delivery: it is a stretch of the stream, and the cursor stands
    just after it. -/
structure InPlace (stream : Bytes) (d : Moment σ) : Prop where
  data : d.found.data = (stream.drop d.found.offset).take (d.found.stop - d.found.offset)
  stop_le : d.found.stop ≤ stream.length
  delivered : d.cursor.delivered = d.found.stop
  lastMatchEnd : d.cursor.lastMatchEnd = d.found.stop

/-- The least offset at which a match may begin after this one. -/
def nextStart (m : Match) : Nat := if m.data = [] then m.stop + 1 else m.stop

/-- Matches that follow one another from a position on. -/
inductive Orderly (stream : Bytes) : Nat → List (Moment σ) → Prop
  | nil {position : Nat} : Orderly stream position []
  | cons {position : Nat} {d : Moment σ} {rest : List (Moment σ)}
    (place : InPlace stream d) (start : position ≤ d.found.offset)
    (after : Orderly stream (nextStart d.found) rest) : Orderly stream position (d :: rest)

theorem stop_le_nextStart (m : Match) : m.stop ≤ nextStart m := by
  rw [nextStart]
  split
  · exact Nat.le_succ _
  · exact Nat.le_refl _

/-- Every match leads on, also an empty one. -/
theorem offset_lt_nextStart (m : Match) : m.offset < nextStart m := by
  rw [nextStart]
  by_cases hempty : m.data = []
  · rw [if_pos hempty]
    exact Nat.lt_succ_of_le (Nat.le_add_right _ _)
  · rw [if_neg hempty]
    exact Nat.lt_add_of_pos_right (List.length_pos_iff.mpr hempty)

namespace Orderly

variable {moments : List (Moment σ)}

theorem mono (h : Orderly stream position moments) {position' : Nat} (hle : position' ≤ position) :
    Orderly stream position' moments := by
  cases h with
  | nil => exact .nil
  | cons place start after => exact .cons place (Nat.le_trans hle start) after

theorem inPlace (h : Orderly stream position moments) : ∀ d ∈ moments, InPlace stream d := by
  induction h with
  | nil => exact nofun
  | cons place start after ih =>
    intro d hd
    rcases List.mem_cons.mp hd with rfl | hrest
    · exact place
    · exact ih d hrest

theorem position_le (h : Orderly stream position moments) :
    ∀ d ∈ moments, position ≤ d.found.offset := by
  induction h with
  | nil => exact nofun
  | cons place start after ih =>
    rename_i position first rest
    intro d hd
    rcases List.mem_cons.mp hd with rfl | hrest
    · exact start
    · have hahead := offset_lt_nextStart first.found
      have hlater := ih d hrest
      omega

/-- Each match begins at the end of every earlier one or after it, and after it if the earlier one
    is empty. -/
theorem pairwise (h : Orderly stream position moments) : moments.Pairwise fun a b =>
    a.found.stop ≤ b.found.offset ∧ (a.found.data = [] → a.found.stop < b.found.offset) := by
  induction h with
  | nil => exact .nil
  | cons place start after ih =>
    rename_i position first rest
    refine .cons (fun d hd => ?_) ih
    have hlater := after.position_le d hd
    refine ⟨Nat.le_trans (stop_le_nextStart first.found) hlater, fun hempty => ?_⟩
    rw [nextStart, if_pos hempty] at hlater
    exact hlater

/-- There is a place of its own for each match. -/
theorem length_le (h : Orderly stream position moments) (hposition : position ≤ stream.length + 1) :
    moments.length + position ≤ stream.length + 1 := by
  induction h with
  | nil =>
    rw [List.length_nil, Nat.zero_add]
    exact hposition
  | cons place start after ih =>
    rename_i position first rest
    have hahead := offset_lt_nextStart first.found
    have hstop := place.stop_le
    have hnext : nextStart first.found ≤ stream.length + 1 := by
      rw [nextStart]
      split <;> omega
    have hrest := ih hnext
    rw [List.length_cons]
    omega

end Orderly

/-! ## Turns -/

variable {ε : Type} [ByteSource σ] [MatchEngine ε (Cursor σ)] {R : σ → Nat → Bytes → Prop}
  {positional : Bool}

omit [MatchEngine ε (Cursor σ)] in
/-- Reading code points leaves a cursor in its stream and the last match where it was. -/
theorem within_nexts (haccount : Account positional stream R) {c : Cursor σ}
    (h : c.Within R stream) (calls : Nat) :
    (c.nexts calls).2.Within R stream ∧ (c.nexts calls).2.lastMatchEnd = c.lastMatchEnd := by
  induction calls generalizing c with
  | zero => exact ⟨h, rfl⟩
  | succ calls ih =>
    obtain ⟨point, c', hnext, hstepped, -⟩ := h.next haccount.supply
    obtain ⟨hwithin, hlast⟩ := ih hstepped.stands
    rw [Cursor.nexts, hnext]
    exact ⟨hwithin, hlast.trans hstepped.lastMatchEnd⟩

/-- What is delivered is a stretch of the stream behind the last match, wherever the engine says
    that it lies; otherwise nothing is delivered. -/
theorem advance_inPlace (hreads : ReadsOnly ε σ) (haccount : Account positional stream R)
    {s : Scan ε σ} (h : s.cursor.Within R stream) :
    (∃ failure s', s.advance = (.error failure, s')) ∨ (∃ s', s.advance = (.ok none, s')) ∨
      ∃ d s', s.advance = (.ok (some d), s') ∧ s'.cursor.Within R stream ∧
        InPlace stream ⟨d.found, s'.cursor⟩ ∧ s.cursor.lastMatchEnd ≤ d.found.offset ∧
        d.isEmpty = decide (d.found.data = []) := by
  obtain ⟨calls, hcalls⟩ := hreads s.engine s.cursor
  obtain ⟨hwithin, hlast⟩ := within_nexts haccount h calls
  rw [advance]
  generalize MatchEngine.find s.engine s.cursor = answer at hcalls ⊢
  obtain ⟨failure | _ | location, engine, cursor⟩ := answer
  · exact Or.inl ⟨failure, _, rfl⟩
  · exact Or.inr (Or.inl ⟨_, rfl⟩)
  · obtain rfl : cursor = (s.cursor.nexts calls).2 := hcalls
    rcases hwithin.extract haccount location.start (location.stop - location.start) with
      ⟨found, c', hextract, hcopied⟩ | ⟨failure, source, hextract, -⟩
    · refine Or.inr (Or.inr
        ⟨⟨found, location.start = location.stop⟩, ⟨engine, c'⟩, ?_, hcopied.within, ?_, ?_, ?_⟩)
      · simp only [hextract]
      · have hstop := hwithin.delivered_le
        have hsize : found.stop - found.offset = (location.stop - location.start).toNat := by
          rw [Match.stop, Nat.add_sub_cancel_left, hcopied.size]
        refine ⟨?_, Nat.le_trans hcopied.stop_le hstop, hcopied.delivered, hcopied.lastMatchEnd⟩
        rw [hsize]
        exact hcopied.data
      · rw [← hlast]
        show _ ≤ found.offset
        rw [hcopied.offset]
        exact Nat.le_add_right _ _
      · have hnatural := hcopied.length_nonneg
        have hsize := hcopied.size
        refine decide_eq_decide.mpr ?_
        rw [← List.length_eq_zero_iff]
        show _ ↔ found.data.length = 0
        omega
    · exact Or.inl ⟨failure, ⟨engine, { (s.cursor.nexts calls).2 with source }⟩, by
        simp only [hextract]⟩

omit [MatchEngine ε (Cursor σ)] in
/-- Behind a match there is nothing, or the pass goes on at the next place where a match may begin
    or later. -/
theorem stepPast_inPlace (haccount : Account positional stream R) {s : Scan ε σ}
    (h : s.cursor.Within R stream) {d : Delivery} (hplace : InPlace stream ⟨d.found, s.cursor⟩)
    (hempty : d.isEmpty = decide (d.found.data = [])) :
    (∃ s', s.stepPast d = (.ok false, s')) ∨
      ∃ s', s.stepPast d = (.ok true, s') ∧ s'.cursor.Within R stream ∧
        nextStart d.found ≤ s'.cursor.lastMatchEnd ∧
        s'.cursor.lastMatchEnd ≤ stream.length := by
  have hdelivered := hplace.delivered
  have hlast := hplace.lastMatchEnd
  have hstop := hplace.stop_le
  rw [stepPast, hempty, nextStart]
  by_cases hdata : d.found.data = []
  · rw [decide_eq_true hdata, if_pos rfl, if_pos hdata]
    obtain ⟨stepped, c', hskip, hwithin, -, hmoved⟩ := h.skip haccount
    cases stepped with
    | false => exact Or.inl ⟨{ s with cursor := c' }, by rw [hskip]⟩
    | true =>
      obtain ⟨hless, hend⟩ := hmoved rfl
      have hinside := hwithin.delivered_le
      refine Or.inr ⟨{ s with cursor := c' }, by rw [hskip], hwithin, ?_, ?_⟩
      · show _ ≤ c'.lastMatchEnd
        rw [hend]
        exact Nat.lt_of_le_of_lt (Nat.le_of_eq hdelivered.symm) hless
      · show c'.lastMatchEnd ≤ _
        rw [hend]
        exact hinside
  · rw [decide_eq_false hdata, if_neg Bool.false_ne_true, if_neg hdata]
    refine Or.inr ⟨s, rfl, h, Nat.le_of_eq hlast.symm, ?_⟩
    rw [show s.cursor.lastMatchEnd = d.found.stop from hlast]
    exact hstop

/-! ## Passes -/

/-- A pass delivers orderly matches from the end of the last match on.  It is not stopped if it may
    deliver more of them than there is room for in the stream. -/
theorem run_orderly (hreads : ReadsOnly ε σ) (haccount : Account positional stream R)
    {s : Scan ε σ} (h : s.cursor.Within R stream)
    (hposition : s.cursor.lastMatchEnd ≤ stream.length) (count : Nat)
    (seen : List (Moment σ)) :
    ∃ moments ending s', s.run collectMoments count seen = (ending, moments.reverse ++ seen, s') ∧
      Orderly stream s.cursor.lastMatchEnd moments ∧
      (stream.length + 1 < count + s.cursor.lastMatchEnd → ending ≠ .stopped) := by
  induction count generalizing s seen with
  | zero => exact ⟨[], .stopped, s, rfl, .nil, fun hroom => absurd hroom (by omega)⟩
  | succ count ih =>
    rw [run]
    rcases advance_inPlace hreads haccount h with
      ⟨failure, s', hadvance⟩ | ⟨s', hadvance⟩ | ⟨d, s', hadvance, hwithin, hplace, hstart, hempty⟩
    · rw [hadvance]
      exact ⟨[], .failed failure, s', rfl, .nil, fun _ => nofun⟩
    · rw [hadvance]
      exact ⟨[], .finished, s', rfl, .nil, fun _ => nofun⟩
    · have hone : Orderly stream s.cursor.lastMatchEnd [⟨d.found, s'.cursor⟩] :=
        .cons hplace hstart .nil
      rw [hadvance]
      simp only [collectMoments]
      by_cases hcount : count = 0
      · rw [if_pos hcount]
        refine ⟨[⟨d.found, s'.cursor⟩], .stopped, s', rfl, hone, fun hroom => ?_⟩
        omega
      · rw [if_neg hcount]
        rcases stepPast_inPlace haccount hwithin hplace hempty with
          ⟨s'', hstep⟩ | ⟨s'', hstep, hwithin', hnext, hinside⟩
        · rw [show ({ s' with cursor := { s'.cursor with source := s'.cursor.source } } :
            Scan ε σ).stepPast d = _ from hstep]
          exact ⟨[⟨d.found, s'.cursor⟩], .finished, s'', rfl, hone, fun _ => nofun⟩
        · rw [show ({ s' with cursor := { s'.cursor with source := s'.cursor.source } } :
            Scan ε σ).stepPast d = _ from hstep]
          obtain ⟨moments, ending, s₃, hrun, horderly, hending⟩ :=
            ih hwithin' hinside (⟨d.found, s'.cursor⟩ :: seen)
          have hahead := offset_lt_nextStart d.found
          refine ⟨⟨d.found, s'.cursor⟩ :: moments, ending, s₃, ?_,
            .cons hplace hstart (horderly.mono hnext), fun hroom => hending ?_⟩
          · simp only [hrun, List.reverse_cons, List.append_assoc, List.singleton_append]
          · have hstart' : s.cursor.lastMatchEnd ≤ d.found.offset := hstart
            omega

/-- A pass over a stream delivers stretches of the stream, each with the cursor just after it, in
    order and disjoint, and at most one more of them than there are bytes.  If it may deliver more
    than that, it finishes or fails. -/
theorem run_ordered (hreads : ReadsOnly ε σ) {source : σ}
    (hsource : WellBehaved positional stream source) (e : ε) (size : Int) (count : Nat) :
    ∃ (moments : List (Moment σ)) (ending : Ending) (s' : Scan ε σ),
      (ofSource e source size).run collectMoments count [] = (ending, moments.reverse, s') ∧
      (∀ d ∈ moments,
        d.found.data = (stream.drop d.found.offset).take (d.found.stop - d.found.offset) ∧
        d.found.stop ≤ stream.length ∧
        d.cursor.delivered = d.found.stop ∧ d.cursor.lastMatchEnd = d.found.stop) ∧
      (moments.Pairwise fun a b =>
        a.found.stop ≤ b.found.offset ∧ (a.found.data = [] → a.found.stop < b.found.offset)) ∧
      moments.length ≤ stream.length + 1 ∧
      (stream.length + 1 < count → ending = .finished ∨ ∃ failure, ending = .failed failure) := by
  obtain ⟨R, haccount, hstart⟩ := hsource
  have hwithin : (ofSource e source size).cursor.Within R stream :=
    Cursor.stands_ofSource hstart size
  obtain ⟨moments, ending, s', hrun, horderly, hending⟩ :=
    run_orderly hreads haccount hwithin (Nat.zero_le _) count []
  rw [List.append_nil] at hrun
  refine ⟨moments, ending, s', hrun, fun d hd => ?_, horderly.pairwise,
    horderly.length_le (Nat.zero_le _), fun hroom => ?_⟩
  · have hplace := horderly.inPlace d hd
    exact ⟨hplace.data, hplace.stop_le, hplace.delivered, hplace.lastMatchEnd⟩
  · cases ending with
    | finished => exact Or.inl rfl
    | stopped => exact absurd rfl (hending hroom)
    | failed failure => exact Or.inr ⟨failure, rfl⟩

/-! ## Engines that only read -/

section
variable {σ : Type}

theorem nexts_succ [ByteSource σ] (c : Cursor σ) (calls : Nat) :
    (c.nexts (calls + 1)).2 = (c.nexts calls).2.next.2 := by
  induction calls generalizing c with
  | zero => rfl
  | succ calls ih => exact ih c.next.2

variable [FiniteSource σ]

/-- The engine that asks a matcher only reads. -/
theorem readsOnly_engine : ReadsOnly Engine σ := by
  intro e c
  have halike : AnswerAlike (fun r r' : Cursor σ => r = r' ∧ ∃ calls, r = (c.nexts calls).2)
      (fun r r' => r = r' ∧ ∃ calls, r = (c.nexts calls).2) := by
    have hnext : ∀ {r r' : Cursor σ}, (r = r' ∧ ∃ calls, r = (c.nexts calls).2) →
        r.next.2 = r'.next.2 ∧ ∃ calls, r.next.2 = (c.nexts calls).2 := by
      rintro r _ ⟨rfl, calls, rfl⟩
      exact ⟨rfl, calls + 1, (nexts_succ c calls).symm⟩
    exact ⟨fun h => by rw [h.1], fun h _ => hnext h, hnext, id⟩
  exact (Engine.findFrom_alike (e := e) (x := .empty) halike ⟨rfl, 0, rfl⟩).2.2

/-- A playback engine only reads. -/
theorem readsOnly_playback : ReadsOnly PlaybackEngine σ := by
  have hpulls : ∀ (answer : Option Location) (pulls : Nat) (c : Cursor σ),
      ∃ calls, (PlaybackEngine.answerAfter answer pulls c).2 = (c.nexts calls).2 := by
    intro answer pulls
    induction pulls with
    | zero => exact fun c => ⟨0, rfl⟩
    | succ pulls ih =>
      intro c
      rw [PlaybackEngine.answerAfter]
      rcases hcase : CodepointReader.next c with ⟨_ | _ | point, c'⟩
      · exact ⟨1, congrArg Prod.snd hcase.symm⟩
      · exact ⟨1, congrArg Prod.snd hcase.symm⟩
      · obtain ⟨calls, hcalls⟩ := ih c'
        refine ⟨calls + 1, ?_⟩
        show (PlaybackEngine.answerAfter answer pulls c').2 = (c.next.2.nexts calls).2
        rw [show c.next.2 = c' from congrArg Prod.snd hcase]
        exact hcalls
  rintro ⟨turns⟩ c
  cases turns with
  | nil => exact ⟨0, rfl⟩
  | cons turn turns => exact hpulls turn.answer turn.pulls c

end

/-- An engine that finds the same empty match again and again, a letter, and a match that ends
    before it begins. -/
def wayward : PlaybackEngine :=
  ⟨[⟨2, some ⟨0, 0⟩⟩, ⟨0, some ⟨0, 0⟩⟩, ⟨2, some ⟨0, 1⟩⟩, ⟨5, some ⟨3, 1⟩⟩]⟩

/-- A letter of two bytes, and two of one byte. -/
def threeLetters : Bytes := [0xC3, 0xA9, 97, 98]

/-- Between two empty matches a letter is stepped over, and the reversed match ends the pass. -/
theorem run_ordered_wayward :
    ∃ (moments : List (Moment Buffer)) (ending : Ending) (s' : Scan PlaybackEngine Buffer),
      (ofSource wayward (Buffer.ofPayload threeLetters (some 1) false) 16).run collectMoments 6 [] =
        (ending, moments.reverse, s') ∧
      (moments.Pairwise fun a b =>
        a.found.stop ≤ b.found.offset ∧ (a.found.data = [] → a.found.stop < b.found.offset)) ∧
      moments.map (·.found) = [⟨0, []⟩, ⟨2, []⟩, ⟨3, [98]⟩] ∧
      ending = .failed (.invalidLocation 3 (-2)) := by
  have hsource : WellBehaved false threeLetters (Buffer.ofPayload threeLetters (some 1) false) :=
    Buffer.wellBehaved (by rintro _ ⟨⟩; decide) false threeLetters
  obtain ⟨moments, ending, s', hrun, -, hordered, -⟩ :=
    run_ordered readsOnly_playback hsource wayward 16 6
  have hfound : ((ofSource wayward (Buffer.ofPayload threeLetters (some 1) false) 16).run
      collectMoments 6 []).2.1.map (·.found) = [⟨3, [98]⟩, ⟨2, []⟩, ⟨0, []⟩] := by decide +kernel
  have hending : ((ofSource wayward (Buffer.ofPayload threeLetters (some 1) false) 16).run
      collectMoments 6 []).1 = .failed (.invalidLocation 3 (-2)) := by decide +kernel
  rw [hrun, List.map_reverse] at hfound
  rw [hrun] at hending
  exact ⟨moments, ending, s', hrun, hordered, List.reverse_inj.mp hfound, hending⟩

end Scan

end StreamScan

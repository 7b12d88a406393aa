import StreamScan.Proofs.Cursor.Invariant

/-!
# One window of looking back

How much of the past a cursor holds depends on when it compacts, and that on what its source answers
and on the order of the calls.  But a compaction moves `current` up to the position and no further.
So `current` never begins beyond the furthest position of the run, and the window reaches back one
capacity from there, in `previous`.

The bound is on the furthest position and not on the present one.  A cursor that has gone back still
holds what it held, and what it has to deliver again does not move `current`.

Of the source nothing is asked but that it keeps to the room it is offered.  It may end, fail, wait
or report less than nothing, and it may report bytes that it has not written.

* **`furthest`** — how far a cursor gets in a run.
* **`Passed`** — the invariant; refills keep it, and moves keep all of it but the position.
* **`looks_back`** — what is still held after a run, and what can be done with it.
-/

namespace StreamScan

namespace Cursor

variable {σ : Type} [ByteSource σ]

/-- The highest position that a cursor has in a run, its start and its end included. -/
def furthest (c : Cursor σ) : List CursorStep → Nat
  | [] => c.delivered
  | step :: steps => max c.delivered ((c.perform step).furthest steps)

theorem delivered_le_furthest (c : Cursor σ) (steps : List CursorStep) :
    c.delivered ≤ c.furthest steps := by
  cases steps with
  | nil => exact Nat.le_refl _
  | cons step steps => exact Nat.le_max_left _ _

/-! ## What refills and moves keep -/

/-- A cursor whose `current` begins no further in the stream than it has been. -/
structure Retains (capacity furthest : Nat) (c : Cursor σ) : Prop where
  fitting : FittingSource c.source
  capacity : c.capacity = capacity
  tracks : ∃ pulled, c.Tracks pulled
  start_le : c.currentStart ≤ furthest

/-- It has not been further than it is said to have been. -/
structure Passed (capacity furthest : Nat) (c : Cursor σ) : Prop
    extends Retains capacity furthest c where
  delivered_le : c.delivered ≤ furthest

variable {capacity furthest : Nat} {c c' : Cursor σ}

/-- With bytes of `current` read, a compaction moves its start up to the position. -/
theorem Passed.compacted (h : Passed capacity furthest c) :
    Passed capacity furthest c.compacted := by
  obtain ⟨pulled, htracks⟩ := h.tracks
  have hcompacted := htracks.compacted
  have hstart := h.start_le
  obtain ⟨window, heq, hcapacity⟩ := htracks.compacted_eq
  have hlayout := htracks.2
  have hread := hlayout.read_le
  have hwrite := hlayout.write_le_pulled
  rw [htracks.currentStart_eq] at hstart
  rw [heq] at hcompacted ⊢
  refine ⟨⟨h.fitting, hcapacity.trans h.capacity, ⟨pulled, hcompacted⟩, ?_⟩, h.delivered_le⟩
  rw [hcompacted.currentStart_eq]
  show pulled.length - (c.writePos - c.readPos) ≤ furthest
  by_cases hfront : c.readPos = 0
  · omega
  · -- nothing is replayed, so the position is the one in `current`
    have hreplay : c.replay = [] := by
      by_cases hnil : c.replay = []
      · exact hnil
      · exact absurd (hlayout.unread hnil) hfront
    have hdelivered := h.delivered_le
    rw [hreplay] at hlayout
    rw [hlayout.delivered_eq] at hdelivered
    omega

/-- What comes in goes behind the write position and moves nothing. -/
theorem Passed.pull (h : Passed capacity furthest c) (hroom : c.writePos < c.capacity)
    (attempts : Nat) : Passed capacity furthest (c.pull attempts).2 := by
  induction attempts generalizing c with
  | zero => exact ⟨⟨h.fitting, h.capacity, h.tracks, h.start_le⟩, h.delivered_le⟩
  | succ attempts ih =>
    have hpositive : 0 < c.capacity - c.writePos := Nat.sub_pos_of_lt hroom
    have hsize := h.fitting.size_le hpositive
    have hfitting := h.fitting.read hpositive
    obtain ⟨pulled, htotal, hlayout⟩ := h.tracks
    rw [Cursor.pull]
    rcases hcase : ByteSource.read c.source (c.capacity - c.writePos) with
      ⟨⟨reported, written⟩ | _ | failure, source⟩
    · rw [hcase] at hsize hfitting
      have hfit : c.writePos + reported.toNat ≤ c.capacity := by
        have hsize' : reported.toNat ≤ c.capacity - c.writePos := hsize
        omega
      have hscribbled := hlayout.scribble written
      simp only
      by_cases hnegative : reported < 0
      · rw [if_pos hnegative]
        exact ⟨⟨hfitting, h.capacity, ⟨pulled, htotal, hscribbled⟩, h.start_le⟩, h.delivered_le⟩
      · rw [if_neg hnegative]
        by_cases hend : reported = 0
        · rw [if_pos hend]
          exact ⟨⟨hfitting, h.capacity, ⟨pulled, htotal, hscribbled⟩, h.start_le⟩,
            h.delivered_le⟩
        · rw [if_neg hend]
          have hrevealed := hscribbled.reveal (n := reported.toNat) hfit
          have htotal' := hrevealed.placed
          refine ⟨⟨hfitting, h.capacity, ⟨_, ?_, hrevealed⟩, ?_⟩, h.delivered_le⟩
          · show c.sourceTotal + reported.toNat = _
            have hplaced := hlayout.placed
            omega
          · have hstart := h.start_le
            show c.sourceTotal + reported.toNat - (c.writePos + reported.toNat) ≤ furthest
            rw [Nat.add_sub_add_right]
            exact hstart
    · rw [hcase] at hfitting
      exact ih ⟨⟨hfitting, h.capacity, ⟨pulled, htotal, hlayout⟩, h.start_le⟩, h.delivered_le⟩
        hroom
    · rw [hcase] at hfitting
      exact ⟨⟨hfitting, h.capacity, ⟨pulled, htotal, hlayout⟩, h.start_le⟩, h.delivered_le⟩

theorem kept_passed (capacity furthest : Nat) : Kept (Passed capacity furthest (σ := σ)) where
  fill {c} h := by
    have hcompacted := h.compacted
    rw [Cursor.fill]
    by_cases hfull : c.compacted.capacity ≤ c.compacted.writePos
    · rw [if_pos hfull]
      exact hcompacted
    · rw [if_neg hfull]
      cases c.compacted.terminated with
      | true => exact hcompacted
      | false => exact hcompacted.pull (Nat.lt_of_not_le hfull) maxEmptyReads
  readAt h readAt hreadAt offset size :=
    ⟨⟨h.fitting.readAt offset size hreadAt, h.capacity, h.tracks, h.start_le⟩, h.delivered_le⟩

/-- A move leaves what is held as it is, wherever it goes. -/
theorem Retains.moved (h : Retains capacity furthest c) (hmoved : Moved c c') :
    Retains capacity furthest c' where
  fitting := by
    rw [hmoved.source_eq]
    exact h.fitting
  capacity := hmoved.capacity_eq.trans h.capacity
  tracks := by
    obtain ⟨pulled, htracks⟩ := h.tracks
    exact ⟨pulled, hmoved.tracks htracks⟩
  start_le := by
    rw [hmoved.currentStart_eq]
    exact h.start_le

theorem Retains.mono (h : Retains capacity furthest c) {further : Nat}
    (hle : furthest ≤ further) : Retains capacity further c :=
  ⟨h.fitting, h.capacity, h.tracks, Nat.le_trans h.start_le hle⟩

/-- A step may lead further, and the bound goes along. -/
theorem Passed.perform (h : Passed capacity furthest c) (step : CursorStep) :
    Passed capacity (max furthest (c.perform step).delivered) (c.perform step) := by
  obtain ⟨c₁, hc₁, hmoved⟩ := (kept_passed capacity furthest).perform h step
  exact ⟨(hc₁.toRetains.moved hmoved).mono (Nat.le_max_left _ _), Nat.le_max_right _ _⟩

theorem Passed.after (h : Passed capacity furthest c) (steps : List CursorStep) :
    Passed capacity (max furthest (c.furthest steps)) (c.after steps) := by
  induction steps generalizing c furthest with
  | nil => exact ⟨h.toRetains.mono (Nat.le_max_left _ _), Nat.le_max_right _ _⟩
  | cons step steps ih =>
    have hrun := ih (h.perform step)
    have hdelivered := h.delivered_le
    have hahead := delivered_le_furthest (c.perform step) steps
    have hbound : max (max furthest (c.perform step).delivered) ((c.perform step).furthest steps) =
        max furthest (c.furthest (step :: steps)) := by
      rw [Cursor.furthest]
      omega
    rw [hbound] at hrun
    exact hrun

/-! ## What is held -/

/-- What a cursor can do that holds one window behind the furthest position. -/
structure LooksBack (capacity furthest : Nat) (c : Cursor σ) : Prop where
  lower_le : c.lower ≤ furthest - capacity
  /-- It can go back to any position that far behind. -/
  rewinds {position : Nat} (hlower : furthest - capacity ≤ position)
    (hupper : position ≤ c.delivered) :
    ∃ c', c.rewind position = (.ok (), c') ∧ c'.delivered = position
  /-- Without positional reads it can copy any match out that begins that far behind. -/
  extracts (hsequential : ByteSource.readAt? c.source = none) {start length : Nat}
    (hlower : furthest - capacity ≤ c.lastMatchEnd + start)
    (hupper : c.lastMatchEnd + start + length ≤ c.delivered) :
    ∃ found c', c.extract start length = (.ok found, c') ∧
      found.offset = c.lastMatchEnd + start ∧ found.data.length = length

theorem Retains.looksBack (h : Retains capacity furthest c) : c.LooksBack capacity furthest := by
  obtain ⟨pulled, htracks⟩ := h.tracks
  have hcapacity := h.capacity
  have hstart := h.start_le
  have hfront := htracks.currentStart_eq
  constructor
  · rw [htracks.lower_eq, hcapacity]
    exact Nat.sub_le_sub_right hstart capacity
  · intro position hlower hupper
    obtain ⟨readPos, replay, hrewind, -⟩ := htracks.rewind_ok hupper (by omega)
    exact ⟨_, hrewind, rfl⟩
  · intro hsequential start length hlower hupper
    have hdelivered := htracks.2.delivered_le
    obtain ⟨readPos, replay, hextract, -⟩ :=
      htracks.extract_ok hsequential rfl rfl hupper (by omega)
    refine ⟨_, _, hextract, rfl, ?_⟩
    rw [List.length_take, List.length_drop]
    omega

/-- One window of looking back is always kept, whatever the source answers and whatever the cursor
    is asked. -/
theorem looks_back {source : σ} (hsource : FittingSource source) (size : Int)
    (steps : List CursorStep) :
    ((ofSource source size).after steps).LooksBack (max size.toNat minCapacity)
      ((ofSource source size).furthest steps) := by
  have hfresh : Passed (max size.toNat minCapacity) 0 (ofSource source size) :=
    ⟨⟨hsource, rfl, ⟨[], tracks_ofSource source size⟩, Nat.le_refl 0⟩, Nat.le_refl 0⟩
  have hrun := hfresh.after steps
  rw [Nat.zero_max] at hrun
  exact hrun.toRetains.looksBack

/-- A source with more bytes than two windows of the least capacity hold. -/
def fortyBytes : Script where
  steps := [.bytes (List.replicate 25 0x41), .notYet, .bytes (List.replicate 15 0x42)]
  positional := none

/-- To the end of it, and then as far back as the bound says. -/
def toEndAndBack : List CursorStep :=
  [.readBytes 20, .readBytes 20, .next, .readBytes 20, .readBytes 20, .rewind 24]

theorem looks_back_forty :
    FittingSource fortyBytes ∧
      ((ofSource fortyBytes 16).after toEndAndBack).LooksBack 16
        ((ofSource fortyBytes 16).furthest toEndAndBack) ∧
      (ofSource fortyBytes 16).furthest toEndAndBack = 40 ∧
      ((ofSource fortyBytes 16).after toEndAndBack).delivered = 24 :=
  have fitting : FittingSource fortyBytes := (Script.honestSource (by decide)).fitting
  ⟨fitting, looks_back fitting 16 toEndAndBack, by decide +kernel, by decide +kernel⟩

end Cursor

end StreamScan

import StreamScan.Proofs.Cursor.Recording
import StreamScan.Proofs.Cursor.Tracking

/-!
# An operation refills and moves

Whatever is asked of a cursor, it may refill a few times or make one positional read, and then it
moves: it sets its position, its replay and the end of the last match, and leaves all else alone.
So what is to be shown of every operation has to be shown of refills, of positional reads and of
moves.  The walk through the operations is made here, once for all properties.

A move keeps what was pulled in the layout that it had.  That needs no invariant of the property in
question: how much of the replay and of `current` a move may take follows from the layout itself.

* **`Moved`** — what a move leaves alone.
* **`Kept`** — a property that refills and positional reads keep.
* **`Kept.perform`** — every step ends with a move, away from a cursor that has the property.
-/

namespace StreamScan

namespace Cursor

/-! ## Moves -/

section
variable {σ : Type} {c c' c'' : Cursor σ}

/-- A cursor that went to another position of what was pulled. -/
structure Moved (c c' : Cursor σ) : Prop where
  frame : c' = { c with
    replay := c'.replay
    readPos := c'.readPos
    delivered := c'.delivered
    lastMatchEnd := c'.lastMatchEnd }
  tracks {pulled : Bytes} (h : c.Tracks pulled) : c'.Tracks pulled

theorem Moved.refl (c : Cursor σ) : Moved c c := ⟨rfl, id⟩

/-- Where the last match ended has no part in the layout. -/
theorem Moved.marked (h : Moved c c') (stop : Nat) :
    Moved c { c' with lastMatchEnd := stop } where
  frame := by rw [h.frame]
  tracks htracks := h.tracks htracks

theorem Moved.source_eq (h : Moved c c') : c'.source = c.source := by rw [h.frame]

theorem Moved.capacity_eq (h : Moved c c') : c'.capacity = c.capacity := by
  rw [h.frame]
  rfl

theorem Moved.currentStart_eq (h : Moved c c') : c'.currentStart = c.currentStart := by
  rw [h.frame]
  rfl

theorem moved_rewind (c : Cursor σ) (position : Int) : Moved c (c.rewind position).2 where
  frame := by
    rw [Cursor.rewind]
    split
    · rfl
    · split
      · rfl
      · split <;> rfl
  tracks h := by
    rcases h.rewind position with ⟨p, readPos, replay, -, -, hrewind, hlayout⟩ | ⟨failure, hrewind⟩
    · rw [hrewind]
      exact ⟨h.1, hlayout⟩
    · rw [hrewind]
      exact h

theorem moved_conclude (c : Cursor σ) (found : Match) (stop : Nat) :
    Moved c (c.conclude found stop).2 := by
  have hmoved := moved_rewind c stop
  rw [Cursor.conclude]
  rcases hcase : c.rewind stop with ⟨_ | _, c'⟩
  · rw [hcase] at hmoved
    exact hmoved
  · rw [hcase] at hmoved
    exact hmoved.marked stop

/-- What is decoded from the replay, and perhaps from bytes behind it, is taken out of both. -/
theorem moved_deliverFromReplay {head : Bytes} (hhead : ∀ {pulled}, c.Tracks pulled →
    head.length ≤ c.replay.length + (c.writePos - c.readPos)) :
    Moved c (c.deliverFromReplay head).2 := by
  cases hdecode : Utf8.decode head with
  | none =>
    rw [Cursor.deliverFromReplay, hdecode]
    exact Moved.refl c
  | some point =>
    constructor
    · rw [Cursor.deliverFromReplay, hdecode]
    · intro pulled h
      obtain ⟨readPos, replay, heq, hlayout⟩ := h.deliverFromReplay hdecode (hhead h)
      rw [heq]
      exact ⟨h.1, hlayout⟩

end

/-! ## Whatever refills keep -/

section
variable {σ : Type} [ByteSource σ]

/-- A property of a cursor that refills and positional reads keep. -/
structure Kept (P : Cursor σ → Prop) : Prop where
  fill {c : Cursor σ} (h : P c) : P c.fill.2
  readAt {c : Cursor σ} (h : P c) {readAt : PositionalRead σ}
    (hreadAt : ByteSource.readAt? c.source = some readAt) (offset size : Int) :
    P { c with source := (readAt offset size).2 }

/-- A cursor that has moved since it had a property. -/
def Leads (P : Cursor σ → Prop) (c' : Cursor σ) : Prop := ∃ c, P c ∧ Moved c c'

namespace Kept

variable {P : Cursor σ → Prop} {c : Cursor σ}

omit [ByteSource σ] in
theorem leads (h : P c) : Leads P c := ⟨c, h, Moved.refl c⟩

theorem lookahead (hP : Kept P) (h : P c) (fills : Nat) : P (c.lookahead fills).2 := by
  induction fills generalizing c with
  | zero => exact h
  | succ fills ih =>
    rw [Cursor.lookahead]
    cases c.wantsMore with
    | false => exact h
    | true =>
      have hfill := hP.fill h
      rw [if_pos rfl]
      rcases hcase : c.fill with ⟨_ | _, c'⟩
      · rw [hcase] at hfill
        exact hfill
      · rw [hcase] at hfill
        exact ih hfill

theorem ensureByte (hP : Kept P) (h : P c) : P c.ensureByte.2 := by
  rw [Cursor.ensureByte]
  cases decide (c.readPos = c.writePos) && !c.terminated with
  | true => exact hP.fill h
  | false => exact h

theorem nextReplayed (hP : Kept P) (h : P c) : Leads P c.nextReplayed.2 := by
  rw [Cursor.nextReplayed, ensureLookahead]
  by_cases hsettled : Utf8.settled (c.replay.take Utf8.maxLength) = true
  · rw [if_pos hsettled]
    refine ⟨c, h, moved_deliverFromReplay fun _ => ?_⟩
    rw [List.length_take]
    omega
  · rw [if_neg hsettled]
    have hahead := hP.lookahead h Utf8.maxLength
    have hreplay := (samePlace_lookahead Utf8.maxLength c).replay
    rcases hcase : c.lookahead Utf8.maxLength with ⟨_ | _, c'⟩
    · rw [hcase] at hahead
      exact leads hahead
    · rw [hcase] at hahead hreplay
      refine ⟨c', hahead, moved_deliverFromReplay fun htracks => ?_⟩
      rw [List.length_append, List.length_take, htracks.length_peek, hreplay]
      omega

theorem nextCurrent (hP : Kept P) (h : P c) (hreplay : c.replay = []) :
    Leads P c.nextCurrent.2 := by
  have hahead := hP.lookahead h Utf8.maxLength
  have hsame := (samePlace_lookahead Utf8.maxLength c).replay
  rw [Cursor.nextCurrent, ensureLookahead]
  rcases hcase : c.lookahead Utf8.maxLength with ⟨_ | _, c'⟩
  · rw [hcase] at hahead
    exact leads hahead
  · rw [hcase] at hahead hsame
    simp only at hahead hsame ⊢
    cases hdecode : Utf8.decode c'.peek with
    | none => exact leads hahead
    | some point =>
      refine ⟨c', hahead, rfl, fun htracks => ?_⟩
      have hsize := Utf8.decode_size hdecode
      have hlength := htracks.length_peek
      have hread := htracks.2.read_le
      exact htracks.advance (hsame.trans hreplay) (by omega)

theorem next (hP : Kept P) (h : P c) : Leads P c.next.2 := by
  rw [Cursor.next]
  cases hreplay : c.replay.isEmpty with
  | true => exact hP.nextCurrent h (List.isEmpty_iff.mp hreplay)
  | false => exact hP.nextReplayed h

theorem readBytes (hP : Kept P) (h : P c) (room : Nat) : Leads P (c.readBytes room).2 := by
  rw [Cursor.readBytes]
  by_cases hroom : room = 0
  · rw [if_pos hroom]
    exact leads h
  · rw [if_neg hroom]
    cases hreplay : c.replay.isEmpty with
    | false => exact ⟨c, h, rfl, fun htracks => ⟨htracks.1, htracks.2.replayed_take room⟩⟩
    | true =>
      have hbyte := hP.ensureByte h
      have hsame : c.ensureByte.2.replay = [] := by
        rw [Cursor.ensureByte]
        rw [List.isEmpty_iff] at hreplay
        cases decide (c.readPos = c.writePos) && !c.terminated with
        | true => exact (samePlace_fill c).replay.trans hreplay
        | false => exact hreplay
      simp only [Bool.not_true, Bool.false_eq_true, if_false]
      rcases hcase : c.ensureByte with ⟨_ | _, c'⟩
      · rw [hcase] at hbyte
        exact leads hbyte
      · rw [hcase] at hbyte hsame
        simp only at hbyte hsame ⊢
        by_cases hdone : c'.readPos = c'.writePos
        · rw [if_pos hdone]
          exact leads hbyte
        · rw [if_neg hdone]
          refine ⟨c', hbyte, rfl, fun htracks => ?_⟩
          have hread := htracks.2.read_le
          exact htracks.advance_to hsame (by omega) (Nat.min_le_right _ _)

theorem extract (hP : Kept P) (h : P c) (start length : Int) :
    Leads P (c.extract start length).2 := by
  rw [Cursor.extract]
  simp only
  split
  · exact leads h
  · split
    · exact leads h
    · split
      · rename_i readAt hreadAt
        have hread := hP.readAt h hreadAt (c.lastMatchEnd + start.toNat : Nat) length
        generalize readAt (c.lastMatchEnd + start.toNat : Nat) length = answer at hread ⊢
        obtain ⟨_ | data, source⟩ := answer
        · exact leads hread
        · simp only
          split
          · exact leads hread
          · exact ⟨_, hread, moved_conclude _ _ _⟩
      · split
        · exact leads h
        · exact ⟨c, h, moved_conclude _ _ _⟩

theorem skip (hP : Kept P) (h : P c) : Leads P c.skip.2 := by
  have hnext := hP.next h
  rw [Cursor.skip]
  rcases hcase : c.next with ⟨_ | _ | point, c'⟩
  · rw [hcase] at hnext
    exact hnext
  · rw [hcase] at hnext
    exact hnext
  · rw [hcase] at hnext
    obtain ⟨c₁, hc₁, hmoved⟩ := hnext
    exact ⟨c₁, hc₁, hmoved.marked _⟩

/-- Every step ends with a move, away from a cursor that has the property. -/
theorem perform (hP : Kept P) (h : P c) (step : CursorStep) : Leads P (c.perform step) := by
  cases step with
  | next => exact hP.next h
  | readBytes room => exact hP.readBytes h room
  | extract start length => exact hP.extract h start length
  | rewind position => exact ⟨c, h, moved_rewind c position⟩
  | skip => exact hP.skip h
  | fill => exact leads (hP.fill h)

/-- A property that moves keep as well holds after every run. -/
theorem after (hP : Kept P) (hmoved : ∀ {c c' : Cursor σ}, P c → Moved c c' → P c') (h : P c)
    (steps : List CursorStep) : P (c.after steps) := by
  induction steps generalizing c with
  | nil => exact h
  | cons step steps ih =>
    obtain ⟨c₁, hc₁, hmove⟩ := hP.perform h step
    exact ih (hmoved hc₁ hmove)

end Kept

end

end Cursor

end StreamScan

import StreamScan.Proofs.Cursor.Moving
import StreamScan.Proofs.Utf8.Decoding

/-!
# The invariant of a cursor over whole runs

Six pieces of state have to stay in step: the two blocks, the two positions in `current`, the two
offsets in the stream, and the replay.  Whatever a cursor is asked to do, in whatever order, with
whatever arguments, and whatever its source answers, they do: `Represents` says what they mean in
terms of the bytes that the source has handed out, and `represents_after` that it holds after
every run.  Operations that fail are steps of a run like any other.

The source is a recorded one, so that the bytes it handed out can be named.  It has to be honest
and nothing more: it may fail, it may never deliver, and it may report negative counts.

The proof goes through `Sound`: the bytes that were handed out are laid out as `Tracks` says.
Refills keep it (`Sound.fill`), and so do moves.
-/

namespace StreamScan

namespace Cursor

variable {σ : Type}

/-- The state of a cursor, said in terms of the bytes that its source has handed out: `B` in the
    comments, with `B[i:j]` for a stretch of it. -/
structure Represents (c : Cursor σ) (capacity : Nat) (handed : Bytes) : Prop where
  total : c.sourceTotal = handed.length
  read_le : c.readPos ≤ c.writePos
  write_le : c.writePos ≤ capacity
  write_le_total : c.writePos ≤ c.sourceTotal
  current_size : c.window.current.size = capacity
  previous_size : c.window.previous.size = capacity
  /-- `current[:writePos]` is `B[total - writePos : total]`. -/
  current : c.window.current.toList.take c.writePos =
    handed.drop (c.sourceTotal - c.writePos)
  /-- The last bytes of `previous`, as many as there are before `current` and as it has room for,
      are those of `B` just before `total - writePos`. -/
  previous : c.window.previous.toList.drop (capacity - min capacity (c.sourceTotal - c.writePos)) =
    (handed.take (c.sourceTotal - c.writePos)).drop
      (c.sourceTotal - c.writePos - min capacity (c.sourceTotal - c.writePos))
  /-- A replay is `B[delivered : total - writePos]`, and `current` is then read from its start. -/
  replaying : c.replay ≠ [] → c.readPos = 0 ∧ c.replay.length ≤ capacity ∧
    c.replay = (handed.take (c.sourceTotal - c.writePos)).drop c.delivered
  /-- Without a replay the next byte is the one at the read position. -/
  reading : c.replay = [] → c.delivered = c.sourceTotal - c.writePos + c.readPos

/-- The layout of what was pulled says all of it. -/
theorem Tracks.represents {c : Cursor σ} {pulled : Bytes} (h : c.Tracks pulled) :
    c.Represents c.capacity pulled := by
  obtain ⟨htotal, hlayout⟩ := h
  have hread := hlayout.read_le
  have hwrite := hlayout.write_le_pulled
  have hplaced := hlayout.placed
  constructor
  · exact htotal
  · exact hread
  · exact hlayout.write_le
  · rw [htotal]
    exact hwrite
  · exact hlayout.sized.current
  · exact hlayout.sized.previous
  · rw [htotal]
    exact hlayout.take_current
  · rw [htotal]
    exact hlayout.drop_previous
  · intro hreplay
    have hfront : c.readPos = 0 := hlayout.unread hreplay
    have hlength : pulled.length - c.writePos - c.delivered = c.replay.length := by omega
    refine ⟨hfront, hlayout.again_le, ?_⟩
    rw [htotal, List.drop_take, hlength]
    exact List.prefix_iff_eq_take.mp hlayout.again
  · intro hreplay
    rw [hreplay, List.length_nil] at hplaced
    omega

/-- The source has no part in it. -/
theorem Represents.forget {c : Cursor (Recorded σ)} {capacity : Nat} {handed : Bytes}
    (h : c.Represents capacity handed) : c.forget.Represents capacity handed where
  total := h.total
  read_le := h.read_le
  write_le := h.write_le
  write_le_total := h.write_le_total
  current_size := h.current_size
  previous_size := h.previous_size
  current := h.current
  previous := h.previous
  replaying := h.replaying
  reading := h.reading

variable [ByteSource σ]

/-- A cursor over an honest source that keeps track of what the source has handed out. -/
structure Sound (capacity : Nat) (c : Cursor (Recorded σ)) : Prop where
  honest : HonestSource c.source.source
  capacity : c.capacity = capacity
  tracks : c.Tracks c.source.handed

theorem sound_ofSource {source : σ} (hsource : HonestSource source) (size : Int) :
    Sound (max size.toNat minCapacity) (ofSource (Recorded.ofSource source) size) where
  honest := hsource
  capacity := rfl
  tracks := tracks_ofSource _ size

variable {capacity : Nat} {c : Cursor (Recorded σ)}

/-! ## Filling -/

theorem Sound.compacted (h : Sound capacity c) : Sound capacity c.compacted := by
  have htracks := h.tracks.compacted
  obtain ⟨window, heq, hcapacity⟩ := h.tracks.compacted_eq
  rw [heq] at htracks ⊢
  exact ⟨h.honest, hcapacity.trans h.capacity, htracks⟩

/-- Reading the source keeps step, whatever it answers. -/
theorem Sound.pull (h : Sound capacity c) (hroom : c.writePos < c.capacity) (attempts : Nat) :
    Sound capacity (c.pull attempts).2 := by
  induction attempts generalizing c with
  | zero => exact ⟨h.honest, h.capacity, h.tracks⟩
  | succ attempts ih =>
    have hpositive : 0 < c.capacity - c.writePos := Nat.sub_pos_of_lt hroom
    have hreply := h.honest.reply hpositive
    have hhonest := h.honest.read hpositive
    obtain ⟨htotal, hlayout⟩ := h.tracks
    rw [Cursor.pull, Recorded.read_eq]
    generalize (ByteSource.read c.source.source (c.capacity - c.writePos)).2 = source
      at hhonest ⊢
    cases hcase : (ByteSource.read c.source.source (c.capacity - c.writePos)).1 with
    | notYet =>
      refine ih ⟨hhonest, h.capacity, ?_⟩ hroom
      simp only [Recorded.handedBy, List.append_nil]
      exact ⟨htotal, hlayout⟩
    | failed failure =>
      refine ⟨hhonest, h.capacity, ?_⟩
      simp only [Recorded.handedBy, List.append_nil]
      exact ⟨htotal, hlayout⟩
    | count reported written =>
      rw [hcase] at hreply
      simp only [Recorded.handedBy]
      by_cases hnegative : reported < 0
      · rw [if_pos hnegative]
        refine ⟨hhonest, h.capacity, ?_⟩
        rw [show reported.toNat = 0 by omega, List.take_zero, List.append_nil]
        exact ⟨htotal, hlayout.scribble written⟩
      · -- an honest count: all that was written is handed out
        obtain ⟨hcount, hfit⟩ := hreply (by omega)
        have hall : written.take reported.toNat = written := List.take_of_length_le (by omega)
        rw [if_neg hnegative, hall]
        by_cases hend : reported = 0
        · rw [if_pos hend]
          have hnone : written = [] := List.eq_nil_of_length_eq_zero (by omega)
          refine ⟨hhonest, h.capacity, ?_⟩
          rw [hnone, List.append_nil]
          exact ⟨htotal, hlayout.scribble []⟩
        · rw [if_neg hend]
          refine ⟨hhonest, h.capacity, ?_, ?_⟩
          · show c.sourceTotal + reported.toNat = (c.source.handed ++ written).length
            rw [List.length_append]
            omega
          · show Layout _ _ _ (c.writePos + reported.toNat) _ _
            rw [show reported.toNat = written.length by omega]
            refine hlayout.receive ?_
            show c.writePos + written.length ≤ c.capacity
            omega

theorem Sound.fill (h : Sound capacity c) : Sound capacity c.fill.2 := by
  have hcompacted := h.compacted
  rw [Cursor.fill]
  by_cases hfull : c.compacted.capacity ≤ c.compacted.writePos
  · rw [if_pos hfull]
    exact hcompacted
  · rw [if_neg hfull]
    cases c.compacted.terminated with
    | true => exact hcompacted
    | false => exact hcompacted.pull (by omega) maxEmptyReads

/-! ## Runs -/

theorem Sound.moved {c' : Cursor (Recorded σ)} (h : Sound capacity c) (hmoved : Moved c c') :
    Sound capacity c' where
  honest := by
    rw [hmoved.source_eq]
    exact h.honest
  capacity := hmoved.capacity_eq.trans h.capacity
  tracks := by
    rw [hmoved.source_eq]
    exact hmoved.tracks h.tracks

theorem kept_sound (capacity : Nat) : Kept (Sound capacity (σ := σ)) where
  fill h := h.fill
  readAt h readAt hreadAt offset size := by
    -- the recorded source has a positional read because the source inside has one
    obtain ⟨inner, hinner, rfl⟩ := Option.map_eq_some_iff.mp hreadAt
    exact ⟨h.honest.readAt offset size hinner, h.capacity, h.tracks⟩

theorem Sound.lookahead (h : Sound capacity c) (fills : Nat) :
    Sound capacity (c.lookahead fills).2 :=
  (kept_sound capacity).lookahead h fills

theorem Sound.perform (h : Sound capacity c) (step : CursorStep) :
    Sound capacity (c.perform step) := by
  obtain ⟨c₁, hc₁, hmoved⟩ := (kept_sound capacity).perform h step
  exact hc₁.moved hmoved

theorem Sound.after (h : Sound capacity c) (steps : List CursorStep) :
    Sound capacity (c.after steps) :=
  (kept_sound capacity).after (fun h hmoved => h.moved hmoved) h steps

/-- After every run the state of a cursor is what the bytes its source has handed out make it. -/
theorem represents_after {source : σ} (hsource : HonestSource source) (size : Int)
    (steps : List CursorStep) :
    ((ofSource source size).after steps).Represents (max size.toNat minCapacity)
      (handedOut source size steps) := by
  -- the record is kept beside the run, so the run is that of the source inside
  have hsound := (sound_ofSource hsource size).after steps
  have hforget := forget_after (ofSource (Recorded.ofSource source) size) steps
  have hrepresents := hsound.tracks.represents
  rw [hsound.capacity] at hrepresents
  rw [show ofSource source size = (ofSource (Recorded.ofSource source) size).forget from rfl,
    ← hforget]
  exact hrepresents.forget

/-- A source that keeps its reader waiting, hands out bytes in two pieces, reports less than
    nothing and then fails. -/
def waitsThenFails : Script where
  steps := [.notYet, .bytes (List.replicate 14 0x41), .bytes [0xF0, 0x9F], .count (-3), .notYet,
    .bytes [0x42, 0x43], .raise .streamClosed]
  positional := none

/-- A run with refused rewinds and extractions, a refill of a full window and a failing read. -/
def refusedRun : List CursorStep :=
  [.next, .readBytes 5, .rewind 1, .extract (-1) 2, .next, .readBytes 20, .next, .extract 2 40,
    .next, .rewind 3, .skip, .fill, .extract 1 4, .next, .rewind 0]

theorem represents_after_waits :
    HonestSource waitsThenFails ∧
      ((ofSource waitsThenFails 16).after refusedRun).Represents 16
        (handedOut waitsThenFails 16 refusedRun) ∧
      ((ofSource waitsThenFails 16).after refusedRun).replay = List.replicate 14 0x41 :=
  have honest : HonestSource waitsThenFails := Script.honestSource (by decide)
  ⟨honest, represents_after honest 16 refusedRun, by decide +kernel⟩

end Cursor

end StreamScan

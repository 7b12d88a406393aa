import StreamScan.Cursor
import StreamScan.Reader

/-!
# A cursor over a finite source is a finite reader

What a cursor can still deliver is bounded by the bytes it holds unread and those its source can
still report.  Compacting the window leaves that number alone, a fill moves bytes from the source
into the window and may lose some on the way but never gains any, and every code point that is
delivered uses up at least one.

* **`remaining`** — replay, unread bytes of `current`, and what the source has left.
* **`remaining_fill_le`** — a fill brings nothing that was not there.
* **`remaining_next_lt`** — a delivered code point uses up at least one byte.
-/

namespace StreamScan.Cursor

variable {σ : Type} [FiniteSource σ]

/-- How many bytes a cursor can still deliver. -/
def remaining (c : Cursor σ) : Nat :=
  c.replay.length + (c.writePos - c.readPos) + FiniteSource.remaining c.source

theorem compacted_remaining (c : Cursor σ) : c.compacted.remaining = c.remaining := by
  rw [compacted]
  split
  · rfl
  · rename_i h
    have hpos : ¬ ((c.readPos : Int) ≤ 0) := by omega
    simp only [remaining, Window.compact, hpos, if_false]
    omega

/-! ## Filling -/

theorem pull_le (attempts : Nat) (c : Cursor σ) :
    (c.pull attempts).2.remaining ≤ c.remaining ∧ (c.pull attempts).2.replay = c.replay := by
  induction attempts generalizing c with
  | zero => exact ⟨Nat.le_refl _, rfl⟩
  | succ attempts ih =>
    have hlaw := FiniteSource.remaining_read c.source (c.capacity - c.writePos)
    rw [pull]
    split
    · rename_i source heq
      rw [heq] at hlaw
      obtain ⟨hle, hreplay⟩ := ih { c with source }
      refine ⟨Nat.le_trans hle ?_, hreplay⟩
      simp only [remaining, Reply.size] at hlaw ⊢
      omega
    · rename_i failure source heq
      rw [heq] at hlaw
      refine ⟨?_, rfl⟩
      simp only [remaining, Reply.size] at hlaw ⊢
      omega
    · rename_i reported written source heq
      rw [heq] at hlaw
      simp only [Reply.size] at hlaw
      simp only
      split
      · refine ⟨?_, rfl⟩
        simp only [remaining]
        omega
      · split
        · refine ⟨?_, rfl⟩
          simp only [remaining]
          omega
        · refine ⟨?_, rfl⟩
          simp only [remaining]
          omega

theorem fill_le (c : Cursor σ) :
    c.fill.2.remaining ≤ c.remaining ∧ c.fill.2.replay = c.replay := by
  have hsame := c.compacted_remaining
  have hreplay := c.compacted_replay
  unfold fill
  simp only
  split
  · exact ⟨Nat.le_of_eq hsame, hreplay⟩
  · split
    · exact ⟨Nat.le_of_eq hsame, hreplay⟩
    · obtain ⟨hle, hkept⟩ := pull_le maxEmptyReads c.compacted
      exact ⟨by omega, hkept.trans hreplay⟩

theorem lookahead_le (fills : Nat) (c : Cursor σ) :
    (c.lookahead fills).2.remaining ≤ c.remaining ∧ (c.lookahead fills).2.replay = c.replay := by
  induction fills generalizing c with
  | zero => exact ⟨Nat.le_refl _, rfl⟩
  | succ fills ih =>
    rw [lookahead]
    split
    · have hfill := c.fill_le
      split
      · rename_i c' heq
        rw [heq] at hfill
        obtain ⟨hle, hkept⟩ := ih c'
        exact ⟨Nat.le_trans hle hfill.1, hkept.trans hfill.2⟩
      · rename_i failure c' heq
        rw [heq] at hfill
        exact hfill
    · exact ⟨Nat.le_refl _, rfl⟩

/-! ## Delivering -/

theorem deliverFromReplay_lt {c c' : Cursor σ} {head : Bytes} {point : Codepoint}
    (hreplay : c.replay ≠ [])
    (h : c.deliverFromReplay head = (.ok (some point), c')) : c'.remaining < c.remaining := by
  rw [deliverFromReplay] at h
  split at h
  · simp at h
  · rename_i decoded heq
    have hsize := Utf8.decode_size heq
    have hlength := List.length_pos_iff.2 hreplay
    obtain ⟨-, rfl⟩ := Prod.mk.inj h
    simp only [remaining, List.length_drop, List.length_take]
    omega

theorem nextReplayed_lt {c c' : Cursor σ} {point : Codepoint} (hreplay : c.replay ≠ [])
    (h : c.nextReplayed = (.ok (some point), c')) : c'.remaining < c.remaining := by
  unfold nextReplayed at h
  simp only at h
  split at h
  · exact deliverFromReplay_lt hreplay h
  · have hle := lookahead_le Utf8.maxLength c
    rw [ensureLookahead] at h
    split at h
    · simp at h
    · rename_i c₁ heq
      rw [heq] at hle
      have hkept : c₁.replay ≠ [] := by rw [hle.2]; exact hreplay
      exact Nat.lt_of_lt_of_le (deliverFromReplay_lt hkept h) hle.1

theorem nextCurrent_lt {c c' : Cursor σ} {point : Codepoint}
    (h : c.nextCurrent = (.ok (some point), c')) : c'.remaining < c.remaining := by
  have hle := lookahead_le Utf8.maxLength c
  rw [nextCurrent, ensureLookahead] at h
  split at h
  · simp at h
  · rename_i c₁ heq
    rw [heq] at hle
    split at h
    · rw [report] at h
      split at h <;> simp at h
    · rename_i decoded hdecode
      have hsize := Utf8.decode_size hdecode
      have hpeek := c₁.length_peek_le
      obtain ⟨-, rfl⟩ := Prod.mk.inj h
      refine Nat.lt_of_lt_of_le ?_ hle.1
      simp only [remaining]
      omega

/-- A code point that is delivered uses up at least one of the bytes that remain. -/
theorem remaining_next_lt {c c' : Cursor σ} {point : Codepoint}
    (h : c.next = (.ok (some point), c')) : c'.remaining < c.remaining := by
  rw [next] at h
  split at h
  · exact nextCurrent_lt h
  · rename_i hreplay
    exact nextReplayed_lt (by simpa using hreplay) h

instance : FiniteReader (Cursor σ) where
  next := next
  remaining := remaining
  remaining_next h := remaining_next_lt h

end StreamScan.Cursor

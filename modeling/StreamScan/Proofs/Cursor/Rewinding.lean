import Mathlib.Control.Monad.Basic
import StreamScan.Proofs.Cursor.Copying
import StreamScan.Proofs.Cursor.Recording

/-!
# Decoding after going back

Whatever a cursor was asked before, it stands in the stream of its source, between code points or
inside one.  So when it goes back, the next code point is the one that the stream decodes to at the
new position, with one exception.  A code point that begins in the replay may end in bytes that have
not been pulled.  Then more would have to be read; but the lookahead considers `current` alone,
where the continuation bytes that are there look settled, and so nothing is read.  The first byte of
the sequence is replaced, though the rest of it was still to come.

* **`Within.perform`** — every operation leaves the cursor in its stream.
* **`next_after_rewind`** — the next code point after going back, in every case.
* **`next_after_rewind_torn`** — a sign of three bytes that is decoded to a replacement.
-/

namespace StreamScan

namespace Cursor

variable {σ : Type} [ByteSource σ] {R : σ → Nat → Bytes → Prop} {positional : Bool}
  {stream : Bytes} {c c' : Cursor σ}

namespace Within

/-- A refill that was not asked for may find the window full or the source over, and then it only
    compacts. -/
theorem fill (haccount : Account positional stream R) (h : c.Within R stream) :
    c.fill.2.Within R stream ∧ c.fill.2.Stocked := by
  obtain ⟨hcompacted, hcapacity, hunread, hwrite, hended, hlatched, -, -⟩ := h.compacted
  have hterminated : c.compacted.terminated = c.terminated := by
    rw [terminated, terminated, hended, hlatched]
  by_cases hroom : c.unread < c.capacity
  · cases hcase : c.terminated with
    | false =>
      obtain ⟨c', hfill, hrefilled⟩ := Stands.fill haccount.supply h hroom hcase
      rw [hfill]
      exact ⟨hrefilled.stands, hrefilled.stocked⟩
    | true =>
      rw [hcase] at hterminated
      have hfull : ¬ c.compacted.capacity ≤ c.compacted.writePos := by omega
      rw [Cursor.fill, if_neg hfull, hterminated]
      exact ⟨hcompacted, fun _ => Or.inr hterminated⟩
  · have hfull : c.compacted.capacity ≤ c.compacted.writePos := by omega
    have hroomy := hcompacted.roomy
    have hfour : Utf8.maxLength = 4 := rfl
    rw [Cursor.fill, if_pos hfull]
    refine ⟨hcompacted, fun hempty => ?_⟩
    have hempty' : c.compacted.writePos = 0 := hempty
    omega

/-- A byte is at hand afterwards, or the stream is at its end. -/
theorem ensureByte (haccount : Account positional stream R) (h : c.Within R stream)
    (hstocked : c.Stocked) :
    ∃ c', c.ensureByte = (.ok (), c') ∧ c'.Within R stream ∧ c'.Stocked ∧ SamePlace c c' := by
  rw [Cursor.ensureByte]
  by_cases hneeds : (decide (c.readPos = c.writePos) && !c.terminated) = true
  · rw [if_pos hneeds]
    simp only [Bool.and_eq_true, decide_eq_true_eq, Bool.not_eq_true'] at hneeds
    have hnone : c.unread = 0 := by
      rw [unread, hneeds.1, Nat.sub_self]
    have hroom : c.unread < c.capacity := by
      rw [hnone]
      exact Nat.lt_of_lt_of_le (by decide) h.roomy
    obtain ⟨c', hfill, hrefilled⟩ := Stands.fill haccount.supply h hroom hneeds.2
    exact ⟨c', hfill, hrefilled.stands, hrefilled.stocked, hrefilled.same⟩
  · rw [if_neg hneeds]
    exact ⟨c, rfl, h, hstocked, SamePlace.refl c⟩

/-- Reading plain bytes may stop anywhere, also inside a sequence. -/
theorem readBytes (haccount : Account positional stream R) (h : c.Within R stream)
    (hstocked : c.Stocked) (room : Nat) :
    (c.readBytes room).2.Within R stream ∧ (c.readBytes room).2.Stocked := by
  rw [Cursor.readBytes]
  by_cases hroom : room = 0
  · rw [if_pos hroom]
    exact ⟨h, hstocked⟩
  · rw [if_neg hroom]
    cases hreplay : c.replay.isEmpty with
    | false => exact ⟨⟨⟨h.tracks.1, h.tracks.2.replayed_take room⟩, h.serves, h.done, h.roomy⟩,
        hstocked⟩
    | true =>
      obtain ⟨c₁, hbyte, hwithin, hstocked₁, hsame⟩ := h.ensureByte haccount hstocked
      have hnone : c₁.replay = [] := hsame.replay.trans (List.isEmpty_iff.mp hreplay)
      rw [hbyte]
      simp only [Bool.not_true, Bool.false_eq_true, if_false]
      by_cases hdone : c₁.readPos = c₁.writePos
      · rw [if_pos hdone]
        exact ⟨hwithin, hstocked₁⟩
      · rw [if_neg hdone]
        have hread := hwithin.tracks.2.read_le
        have hstop := Nat.min_le_right (c₁.readPos + room) c₁.writePos
        have htracks := hwithin.tracks.advance_to hnone (by omega) hstop
        exact ⟨⟨htracks, hwithin.serves, hwithin.done, hwithin.roomy⟩, hstocked₁⟩

/-- No operation leads out of the stream, whether it succeeds or not. -/
theorem perform (haccount : Account positional stream R) (h : c.Within R stream)
    (hstocked : c.Stocked) (step : CursorStep) :
    (c.perform step).Within R stream ∧ (c.perform step).Stocked := by
  cases step with
  | next =>
    obtain ⟨point, c', hnext, hstepped, -⟩ := h.next haccount.supply
    rw [Cursor.perform, hnext]
    exact ⟨hstepped.stands, hstepped.stocked hstocked⟩
  | readBytes room => exact h.readBytes haccount hstocked room
  | extract start length =>
    rw [Cursor.perform]
    rcases h.extract haccount start length with
      ⟨found, c', hextract, hcopied⟩ | ⟨failure, source, hextract, hwithin⟩
    · rw [hextract]
      exact ⟨hcopied.within, hcopied.stocked hstocked⟩
    · rw [hextract]
      exact ⟨hwithin, hstocked⟩
  | rewind position =>
    rw [Cursor.perform]
    rcases h.rewind position with ⟨p, readPos, replay, -, -, hrewind, hwithin⟩ | ⟨failure, hrewind⟩
    · rw [hrewind]
      exact ⟨hwithin, hstocked⟩
    · rw [hrewind]
      exact ⟨h, hstocked⟩
  | skip =>
    obtain ⟨stepped, c', hskip, hwithin, hkept, -⟩ := h.skip haccount
    rw [Cursor.perform, hskip]
    exact ⟨hwithin, hkept hstocked⟩
  | fill => exact h.fill haccount

theorem after (haccount : Account positional stream R) (h : c.Within R stream)
    (hstocked : c.Stocked) (steps : List CursorStep) :
    (c.after steps).Within R stream ∧ (c.after steps).Stocked := by
  induction steps generalizing c with
  | nil => exact ⟨h, hstocked⟩
  | cons step steps ih =>
    obtain ⟨hwithin, hstocked'⟩ := h.perform haccount hstocked step
    exact ih hwithin hstocked'

/-- The next code point is that of the stream just when the cursor is not torn. -/
theorem next_iff (haccount : Account positional stream R) (h : c.Within R stream)
    (hstocked : c.Stocked) :
    c.next.1 = .ok (Utf8.decode (stream.drop c.delivered)) ↔ ¬ c.Torn stream := by
  constructor
  · intro hnext htorn
    rw [h.next_of_torn hstocked htorn] at hnext
    have hdecode := Except.ok.inj hnext
    obtain ⟨hbefore, hbeyond⟩ := htorn
    -- a replacement is one byte long, and that byte was pulled
    rw [← hdecode] at hbeyond
    have hend := h.start_add_unread
    have hbeyond' : c.sourceTotal < c.delivered + 1 := hbeyond
    omega
  · intro hwhole
    obtain ⟨point, c', hnext, -, hpoint⟩ := h.next haccount.supply
    rw [hnext]
    rcases hpoint with rfl | ⟨htorn, -⟩
    · exact answered_none _
    · exact absurd htorn hwhole

end Within

/-- The code point after going back is that of the stream at the new position, unless it begins
    before `current` and ends in bytes that have not been pulled; in its place there is then a
    replacement. -/
theorem next_after_rewind {source : σ} (hsource : WellBehaved positional stream source)
    (size : Int) (steps : List CursorStep) {position : Int}
    (hrewind : ((ofSource source size).after steps).rewind position = (.ok (), c')) :
    0 ≤ position ∧ c'.delivered = position ∧
      (c'.next.1 = .ok (Utf8.decode (stream.drop position.toNat)) ↔ ¬ c'.Torn stream) ∧
      (c'.Torn stream → c'.next.1 = .ok (some Utf8.replacement)) := by
  obtain ⟨R, haccount, hstart⟩ := hsource
  have hfresh : (ofSource source size).Within R stream := stands_ofSource hstart size
  obtain ⟨hwithin, hstocked⟩ := hfresh.after haccount (stocked_ofSource source size) steps
  generalize (ofSource source size).after steps = c at hrewind hwithin hstocked
  rcases hwithin.rewind position with
    ⟨p, readPos, replay, rfl, -, hgone, hthere⟩ | ⟨failure, hrefused⟩
  · rw [hgone] at hrewind
    obtain rfl := (Prod.ext_iff.mp hrewind).2
    have hplaced : ({ c with replay, readPos, delivered := p } : Cursor σ).Stocked := hstocked
    exact ⟨Int.natCast_nonneg p, rfl, Within.next_iff haccount hthere hplaced,
      hthere.next_of_torn hplaced⟩
  · rw [hrefused] at hrewind
    exact nomatch (Prod.ext_iff.mp hrewind).1

/-- The euro sign, in three bytes. -/
def euro : Bytes := [0xE2, 0x82, 0xAC]

/-- A cursor over a source that hands out the sign one byte at a time, after some steps. -/
def inEuro (steps : List CursorStep) : Cursor Buffer :=
  (ofSource (Buffer.ofPayload euro (some 1) false) 16).after steps

theorem wellBehaved_euro : WellBehaved false euro (Buffer.ofPayload euro (some 1) false) :=
  Buffer.wellBehaved (by rintro _ ⟨⟩; decide) false euro

/-- When the whole sign was decoded all of it was pulled.  After going back into it the next code
    point is that of the second byte by itself. -/
theorem next_after_rewind_euro :
    ((inEuro [.next]).rewind 1).1 = .ok () ∧
      ((inEuro [.next]).rewind 1).2.next.1 = .ok (Utf8.decode (euro.drop 1)) := by
  have hallowed : ((inEuro [.next]).rewind 1).1 = .ok () := by decide +kernel
  have hrewind : (inEuro [.next]).rewind 1 = (.ok (), ((inEuro [.next]).rewind 1).2) := by
    rw [← hallowed]
  have hwhole : ¬ ((inEuro [.next]).rewind 1).2.Torn euro := by decide +kernel
  have hnext := (next_after_rewind wellBehaved_euro 16 [.next] hrewind).2.2.1
  exact ⟨hallowed, hnext.mpr hwhole⟩

/-- When one byte was read and the next one decoded, `current` begins with the second byte, and the
    third is still to come.  After going back to the start the sign is replaced. -/
theorem next_after_rewind_torn :
    WellBehaved false euro (Buffer.ofPayload euro (some 1) false) ∧
      ((inEuro [.readBytes 1, .next]).rewind 0).1 = .ok () ∧
      ((inEuro [.readBytes 1, .next]).rewind 0).2.next.1 = .ok (some Utf8.replacement) ∧
      Utf8.decode euro = some ⟨'€', 3⟩ :=
  ⟨wellBehaved_euro, by decide +kernel, by decide +kernel, by decide +kernel⟩

end Cursor

end StreamScan

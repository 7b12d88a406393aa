import StreamScan.Proofs.Cursor.Standing

/-!
# Going back and copying out

A cursor that stands in a stream goes back to any position that its window still holds, and then it
stands in the same stream at that position.  When it copies a match out, it brings the bytes of the
stream at the offsets it was given, or it fails and has not moved: a location may be negative, or
lie beyond what was delivered, or reach back too far, and none of that can bring other bytes.  This
holds whatever the location is, so nothing is asked of whoever found it.

The source is well-behaved here.  It says when it is over and says so again, and a positional read
of it leaves it as it was.

* **`Stands.rewind`** — going back, or being refused.
* **`Within.extract`** — what is copied out, and where the cursor stands after it.
* **`Within.skip`** — stepping over a code point.
-/

namespace StreamScan

namespace Cursor

variable {σ : Type} {R : σ → Nat → Bytes → Prop} {Over : σ → Prop} {last : Option Failure}
  {stream : Bytes} {c c' : Cursor σ}

/-- Going back leads to a position that was passed, or it is refused and changes nothing. -/
theorem Stands.rewind (h : c.Stands R Over last stream) (position : Int) :
    (∃ (p readPos : Nat) (replay : Bytes), position = p ∧ p ≤ c.delivered ∧
        c.rewind position = (.ok (), { c with replay, readPos, delivered := p }) ∧
        { c with replay, readPos, delivered := p }.Stands R Over last stream) ∨
      ∃ failure, c.rewind position = (.error failure, c) := by
  rcases h.tracks.rewind position with
    ⟨p, readPos, replay, hposition, hback, hrewind, hlayout⟩ | hrefused
  · exact Or.inl ⟨p, readPos, replay, hposition, hback, hrewind, ⟨h.tracks.1, hlayout⟩, h.serves,
      h.done, h.roomy⟩
  · exact Or.inr hrefused

/-- The same of going on right after a match. -/
theorem Stands.conclude (h : c.Stands R Over last stream) (found : Match) (stop : Nat) :
    (∃ (readPos : Nat) (replay : Bytes), stop ≤ c.delivered ∧ c.conclude found stop =
        (.ok found, { c with replay, readPos, delivered := stop, lastMatchEnd := stop }) ∧
        { c with replay, readPos, delivered := stop, lastMatchEnd := stop }.Stands R Over last
          stream) ∨
      ∃ failure, c.conclude found stop = (.error failure, c) := by
  rw [Cursor.conclude]
  rcases h.rewind stop with ⟨p, readPos, replay, hposition, hback, hrewind, hstands⟩ |
    ⟨failure, hrewind⟩
  · obtain rfl := Int.natCast_inj.mp hposition
    rw [hrewind]
    exact Or.inl ⟨readPos, replay, hback, rfl, hstands.tracks, hstands.serves, hstands.done,
      hstands.roomy⟩
  · rw [hrewind]
    exact Or.inr ⟨failure, rfl⟩

/-- A stretch that the window holds is one of the stream. -/
theorem Stands.slice_eq (h : c.Stands R Over last stream) {offset length : Nat}
    (hheld : c.currentStart ≤ offset + c.capacity) (hread : offset + length ≤ c.delivered) :
    c.window.slice (offset : Nat) length c.sourceTotal c.writePos =
      (stream.drop offset).take length := by
  have hstart := h.tracks.currentStart_eq
  have hdelivered := h.tracks.2.delivered_le
  have hlower : (stream.take c.sourceTotal).length ≤ offset + c.writePos + c.window.capacity := by
    show _ ≤ offset + c.writePos + c.capacity
    omega
  have hupper : offset + length ≤ (stream.take c.sourceTotal).length :=
    Nat.le_trans hread hdelivered
  have hsum := h.tracks.1
  rw [h.tracks.1, h.tracks.2.slice_eq hlower hupper, List.drop_take, List.take_take,
    Nat.min_eq_left (by omega)]

theorem Stands.delivered_le (h : c.Stands R Over last stream) : c.delivered ≤ stream.length := by
  have hdelivered := h.tracks.2.delivered_le
  rw [List.length_take] at hdelivered
  omega

/-! ## Over a well-behaved source -/

/-- A cursor in the stream of a source that keeps its account when it is over. -/
abbrev Within (R : σ → Nat → Bytes → Prop) (stream : Bytes) (c : Cursor σ) : Prop :=
  c.Stands R (fun source => R source 0 []) none stream

namespace Within

theorem account (h : c.Within R stream) : R c.source 0 (stream.drop c.sourceTotal) := by
  cases hcase : c.terminated with
  | false => exact h.serves hcase
  | true =>
    obtain ⟨hover, htotal, -⟩ := h.done hcase
    rw [htotal, List.drop_length]
    exact hover

/-- The source may become another one with the same bytes to come. -/
theorem withSource (h : c.Within R stream) {source : σ}
    (hserves : R source 0 (stream.drop c.sourceTotal)) : { c with source }.Within R stream where
  tracks := h.tracks
  serves _ := hserves
  done hterminated := by
    obtain ⟨-, htotal, hlatched⟩ := h.done hterminated
    rw [htotal, List.drop_length] at hserves
    exact ⟨hserves, htotal, hlatched⟩
  roomy := h.roomy

variable [ByteSource σ] {positional : Bool}

/-- With positional reads the bytes of a match come from there, and only its end is gone back to. -/
theorem extract_positional (haccount : Account true stream R) (h : c.Within R stream)
    {offset start length stop : Nat} (hoffset : c.lastMatchEnd + start = offset)
    (hlength : offset + length = stop) (hstop : stop ≤ c.delivered) :
    ∃ source, R source 0 (stream.drop c.sourceTotal) ∧ c.extract start length =
      { c with source }.conclude ⟨offset, (stream.drop offset).take length⟩ stop := by
  have hdelivered := h.delivered_le
  have hnegative : ¬ ((start : Int) < 0 ∨ (length : Int) < 0) := by omega
  have hbeyond : ¬ c.delivered < stop := Nat.not_lt.mpr hstop
  obtain ⟨readAt, hreadAt, hread⟩ := haccount.readAt h.account rfl
  obtain ⟨source, hanswer, hserves⟩ := hread offset length (by omega)
  -- the read is not short
  have hdata : ((stream.drop offset).take length).length = length := by
    rw [List.length_take, List.length_drop]
    omega
  refine ⟨source, hserves, ?_⟩
  rw [Cursor.extract, if_neg hnegative]
  simp only [Int.toNat_natCast, hoffset, hlength, if_neg hbeyond, hreadAt, hanswer]
  rw [if_neg (not_not_intro hdata)]

/-- Without positional reads a match is copied out of the window, if that holds its start. -/
theorem extract_sequential (haccount : Account false stream R) (h : c.Within R stream)
    {offset start length stop : Nat} (hoffset : c.lastMatchEnd + start = offset)
    (hlength : offset + length = stop) (hstop : stop ≤ c.delivered) :
    c.extract start length =
      if !c.holds offset then
        (.error (.outsideWindow offset c.lower c.sourceTotal (2 * c.capacity)), c)
      else c.conclude ⟨offset, c.window.slice offset length c.sourceTotal c.writePos⟩ stop :=
  Cursor.extract_sequential (haccount.sequential h.account rfl) hoffset hlength hstop

/-- What copying a match out does when it succeeds. -/
structure Copied (R : σ → Nat → Bytes → Prop) (stream : Bytes) (start length : Int) (found : Match)
    (c c' : Cursor σ) : Prop where
  within : c'.Within R stream
  stocked : c.Stocked → c'.Stocked
  start_nonneg : 0 ≤ start
  length_nonneg : 0 ≤ length
  offset : found.offset = c.lastMatchEnd + start.toNat
  data : found.data = (stream.drop found.offset).take length.toNat
  size : found.data.length = length.toNat
  stop_le : found.stop ≤ c.delivered
  delivered : c'.delivered = found.stop
  lastMatchEnd : c'.lastMatchEnd = found.stop

omit [ByteSource σ] in
/-- Concluding with the stretch of the stream between two offsets. -/
theorem conclude_copied (h : c.Within R stream) {offset start length stop : Nat}
    (hoffset : c.lastMatchEnd + start = offset) (hlength : offset + length = stop)
    (hstop : stop ≤ c.delivered) (source : σ)
    (hserves : R source 0 (stream.drop c.sourceTotal)) :
    (∃ found c', { c with source }.conclude ⟨offset, (stream.drop offset).take length⟩ stop =
        (.ok found, c') ∧ Copied R stream start length found c c') ∨
      ∃ failure, { c with source }.conclude ⟨offset, (stream.drop offset).take length⟩ stop =
        (.error failure, { c with source }) := by
  have hdelivered := h.delivered_le
  have hdata : ((stream.drop offset).take length).length = length := by
    rw [List.length_take, List.length_drop]
    omega
  rcases (h.withSource hserves).conclude ⟨offset, (stream.drop offset).take length⟩ stop with
    ⟨readPos, replay, hback, hconclude, hstands⟩ | hrefused
  · have hend : (⟨offset, (stream.drop offset).take length⟩ : Match).stop = stop := by
      rw [Match.stop, hdata]
      exact hlength
    refine Or.inl ⟨_, _, hconclude, hstands, id, Int.natCast_nonneg _, Int.natCast_nonneg _, ?_,
      rfl, hdata, ?_, hend.symm, hend.symm⟩
    · exact hoffset.symm
    · rw [hend]
      exact hback
  · exact Or.inr hrefused

/-- Copying out brings the bytes of the stream and leads to the end of the match, or it fails, and
    then nothing has changed but that a positional read may have been made. -/
theorem extract (haccount : Account positional stream R) (h : c.Within R stream)
    (start length : Int) :
    (∃ found c', c.extract start length = (.ok found, c') ∧
        Copied R stream start length found c c') ∨
      ∃ failure source, c.extract start length = (.error failure, { c with source }) ∧
        { c with source }.Within R stream := by
  by_cases hnegative : start < 0 ∨ length < 0
  · refine Or.inr ⟨.invalidLocation start length, c.source, ?_, h⟩
    rw [Cursor.extract, if_pos hnegative]
  · obtain ⟨start, rfl⟩ := Int.eq_ofNat_of_zero_le (Int.not_lt.mp (not_or.mp hnegative).1)
    obtain ⟨length, rfl⟩ := Int.eq_ofNat_of_zero_le (Int.not_lt.mp (not_or.mp hnegative).2)
    by_cases hbeyond : c.delivered < c.lastMatchEnd + start + length
    · refine Or.inr
        ⟨.beyondDecoded (c.lastMatchEnd + start + length) c.delivered, c.source, ?_, h⟩
      rw [Cursor.extract, if_neg hnegative]
      exact if_pos hbeyond
    · have hstop := Nat.le_of_not_lt hbeyond
      cases positional with
      | true =>
        obtain ⟨source, hserves, hextract⟩ := h.extract_positional haccount rfl rfl hstop
        rcases h.conclude_copied rfl rfl hstop source hserves with
          ⟨found, c', hconclude, hcopied⟩ | ⟨failure, hconclude⟩
        · exact Or.inl ⟨found, c', hextract.trans hconclude, hcopied⟩
        · exact Or.inr ⟨failure, source, hextract.trans hconclude, h.withSource hserves⟩
      | false =>
        have hextract := h.extract_sequential haccount rfl rfl hstop
        cases hholds : c.holds (c.lastMatchEnd + start : Nat) with
        | false =>
          rw [hholds] at hextract
          exact Or.inr ⟨_, c.source, hextract, h⟩
        | true =>
          have hheld := (h.tracks.holds_iff _).mp hholds
          have hstart := h.tracks.currentStart_eq
          rw [hholds, h.slice_eq (by omega) hstop] at hextract
          rcases h.conclude_copied rfl rfl hstop c.source h.account with
            ⟨found, c', hconclude, hcopied⟩ | ⟨failure, hconclude⟩
          · exact Or.inl ⟨found, c', hextract.trans hconclude, hcopied⟩
          · exact Or.inr ⟨failure, c.source, hextract.trans hconclude, h⟩

/-- Stepping over a code point, or finding the end of the stream.  What is stepped over may be the
    replacement of a single byte. -/
theorem skip (haccount : Account positional stream R) (h : c.Within R stream) :
    ∃ stepped c', c.skip = (.ok stepped, c') ∧ c'.Within R stream ∧ (c.Stocked → c'.Stocked) ∧
      (stepped = true → c.delivered < c'.delivered ∧ c'.lastMatchEnd = c'.delivered) := by
  obtain ⟨point, c₁, hnext, hstepped, hpoint⟩ := h.next haccount.supply
  have hdelivered := hstepped.delivered
  have hstands := hstepped.stands
  rw [Cursor.skip, hnext]
  cases point with
  | none => exact ⟨false, c₁, rfl, hstands, hstepped.stocked, nofun⟩
  | some point =>
    refine ⟨true, { c₁ with lastMatchEnd := c₁.delivered }, rfl,
      ⟨hstands.tracks, hstands.serves, hstands.done, hstands.roomy⟩, hstepped.stocked,
      fun _ => ⟨?_, rfl⟩⟩
    have hsize : 1 ≤ point.size := by
      rcases hpoint with hdecode | ⟨-, hreplaced⟩
      · exact (Utf8.decode_size hdecode.symm).1
      · obtain rfl := Option.some.inj hreplaced
        exact Nat.le_refl 1
    show c.delivered < c₁.delivered
    rw [hdelivered]
    exact Nat.lt_add_of_pos_right hsize

end Within

end Cursor

end StreamScan

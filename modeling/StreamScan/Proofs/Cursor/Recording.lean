import StreamScan.Cursor
import StreamScan.Proofs.Source.Recorded

/-!
# Recording changes nothing

A cursor over a source does step for step what a cursor over a source that answers alike does: a
map between the two sources (`mapSource`) commutes with every operation, answers included.  A
recorded source is mapped to the source inside by forgetting the record.  So what is proved of the
bytes in the record is true of the bytes that the source hands out to any cursor.

* **`CursorStep`**, **`after`** — what can be asked of a cursor, and the cursor that a run leaves
  behind.
* **`map_after`** — a run commutes with a map between sources.
* **`forget_after`** — a run over a recorded source is the run over the source itself.
-/

namespace StreamScan

/-- What can be asked of a cursor.  Refilling is not for its users, but it may come at any time. -/
inductive CursorStep where
  | next
  | readBytes (room : Nat)
  | extract (start length : Int)
  | rewind (position : Int)
  | skip
  | fill

namespace Cursor

section
variable {σ : Type} [ByteSource σ]

/-- The cursor that one step leaves behind, whether the step fails or not. -/
def perform (c : Cursor σ) : CursorStep → Cursor σ
  | .next => c.next.2
  | .readBytes room => (c.readBytes room).2
  | .extract start length => (c.extract start length).2
  | .rewind position => (c.rewind position).2
  | .skip => c.skip.2
  | .fill => c.fill.2

/-- The cursor that a run leaves behind. -/
def after (c : Cursor σ) (steps : List CursorStep) : Cursor σ := steps.foldl perform c

theorem after_append (c : Cursor σ) (steps more : List CursorStep) :
    c.after (steps ++ more) = (c.after steps).after more := List.foldl_append

/-- The bytes that a source hands out to a cursor during a run. -/
def handedOut (source : σ) (size : Int) (steps : List CursorStep) : Bytes :=
  ((ofSource (Recorded.ofSource source) size).after steps).source.handed

end

/-- The same cursor over another source. -/
def mapSource {σ τ : Type} (f : σ → τ) (c : Cursor σ) : Cursor τ :=
  { c with source := f c.source }

/-- An answer together with the cursor over another source. -/
def mapAfter {σ τ α : Type} (f : σ → τ) (result : α × Cursor σ) : α × Cursor τ :=
  (result.1, result.2.mapSource f)

section
variable {σ τ : Type} {f : σ → τ} (c : Cursor σ)

theorem mapSource_source : (c.mapSource f).source = f c.source := rfl

theorem mapSource_capacity : (c.mapSource f).capacity = c.capacity := rfl

theorem mapSource_lastMatchEnd : (c.mapSource f).lastMatchEnd = c.lastMatchEnd := rfl

theorem mapSource_writePos : (c.mapSource f).writePos = c.writePos := rfl

theorem mapSource_peek : (c.mapSource f).peek = c.peek := rfl

theorem map_compacted : c.compacted.mapSource f = (c.mapSource f).compacted := by
  rw [compacted, compacted]
  by_cases hzero : c.readPos = 0
  · rw [if_pos hzero, if_pos (show (c.mapSource f).readPos = 0 from hzero)]
  · rw [if_neg hzero, if_neg (show ¬ (c.mapSource f).readPos = 0 from hzero)]
    rfl

theorem map_deliverFromReplay (head : Bytes) :
    mapAfter f (c.deliverFromReplay head) = (c.mapSource f).deliverFromReplay head := by
  rw [deliverFromReplay, deliverFromReplay]
  cases Utf8.decode head with
  | none => rfl
  | some point => rfl

theorem map_rewind (position : Int) :
    mapAfter f (c.rewind position) = (c.mapSource f).rewind position := by
  rw [rewind, rewind]
  show _ = if (c.delivered : Int) < position then _ else
    if (c.currentStart : Int) ≤ position then _ else if (!c.holds position) = true then _ else _
  by_cases hforward : (c.delivered : Int) < position
  · rw [if_pos hforward, if_pos hforward]
    rfl
  · rw [if_neg hforward, if_neg hforward]
    by_cases hcurrent : (c.currentStart : Int) ≤ position
    · rw [if_pos hcurrent, if_pos hcurrent]
      rfl
    · rw [if_neg hcurrent, if_neg hcurrent]
      by_cases hheld : (!c.holds position) = true
      · rw [if_pos hheld, if_pos hheld]
        rfl
      · rw [if_neg hheld, if_neg hheld]
        rfl

theorem map_conclude (found : Match) (stop : Nat) :
    mapAfter f (c.conclude found stop) = (c.mapSource f).conclude found stop := by
  rw [conclude, conclude, ← map_rewind]
  rcases c.rewind stop with ⟨_ | _, c'⟩
  · rfl
  · rfl

end

section
variable {σ τ : Type} [ByteSource σ] [ByteSource τ] {f : σ → τ} (hf : SourceMap f) (c : Cursor σ)

include hf

/-! ## Reading the source -/

theorem map_pull (attempts : Nat) :
    mapAfter f (c.pull attempts) = (c.mapSource f).pull attempts := by
  induction attempts generalizing c with
  | zero => rfl
  | succ attempts ih =>
    rw [pull, pull, mapSource_source, hf.read, mapSource_capacity, mapSource_writePos]
    rcases ByteSource.read c.source (c.capacity - c.writePos) with ⟨reply, source⟩
    cases reply with
    | notYet => exact ih _
    | failed failure => rfl
    | count reported written =>
      simp only
      by_cases hnegative : reported < 0
      · rw [if_pos hnegative, if_pos hnegative]
        rfl
      · rw [if_neg hnegative, if_neg hnegative]
        by_cases hend : reported = 0
        · rw [if_pos hend, if_pos hend]
          rfl
        · rw [if_neg hend, if_neg hend]
          rfl

theorem map_fill : mapAfter f c.fill = (c.mapSource f).fill := by
  rw [fill, fill, ← map_compacted]
  show _ = if c.compacted.capacity ≤ c.compacted.writePos then _ else
    if c.compacted.terminated = true then _ else _
  by_cases hfull : c.compacted.capacity ≤ c.compacted.writePos
  · rw [if_pos hfull, if_pos hfull]
    rfl
  · rw [if_neg hfull, if_neg hfull]
    by_cases hover : c.compacted.terminated = true
    · rw [if_pos hover, if_pos hover]
      rfl
    · rw [if_neg hover, if_neg hover]
      exact map_pull hf _ maxEmptyReads

theorem map_lookahead (fills : Nat) :
    mapAfter f (c.lookahead fills) = (c.mapSource f).lookahead fills := by
  induction fills generalizing c with
  | zero => rfl
  | succ fills ih =>
    rw [lookahead, lookahead, ← map_fill hf]
    show _ = if c.wantsMore = true then _ else _
    by_cases hwants : c.wantsMore = true
    · rw [if_pos hwants, if_pos hwants]
      rcases c.fill with ⟨_ | _, c'⟩
      · rfl
      · exact ih c'
    · rw [if_neg hwants, if_neg hwants]
      rfl

/-! ## Delivering -/

theorem map_nextReplayed : mapAfter f c.nextReplayed = (c.mapSource f).nextReplayed := by
  rw [nextReplayed, nextReplayed, ensureLookahead, ensureLookahead, ← map_lookahead hf]
  show _ = if Utf8.settled (c.replay.take Utf8.maxLength) = true then _ else _
  by_cases hsettled : Utf8.settled (c.replay.take Utf8.maxLength) = true
  · rw [if_pos hsettled, if_pos hsettled]
    exact map_deliverFromReplay c _
  · rw [if_neg hsettled, if_neg hsettled]
    rcases c.lookahead Utf8.maxLength with ⟨_ | _, c'⟩
    · rfl
    · exact map_deliverFromReplay c' _

theorem map_nextCurrent : mapAfter f c.nextCurrent = (c.mapSource f).nextCurrent := by
  rw [nextCurrent, nextCurrent, ensureLookahead, ensureLookahead, ← map_lookahead hf]
  rcases c.lookahead Utf8.maxLength with ⟨_ | _, c'⟩
  · rfl
  · simp only [mapAfter, mapSource_peek]
    cases Utf8.decode c'.peek with
    | none => rfl
    | some point => rfl

theorem map_next : mapAfter f c.next = (c.mapSource f).next := by
  rw [next, next]
  show _ = if c.replay.isEmpty = true then _ else _
  by_cases hreplay : c.replay.isEmpty = true
  · rw [if_pos hreplay, if_pos hreplay]
    exact map_nextCurrent hf c
  · rw [if_neg hreplay, if_neg hreplay]
    exact map_nextReplayed hf c

theorem map_ensureByte : mapAfter f c.ensureByte = (c.mapSource f).ensureByte := by
  rw [ensureByte, ensureByte]
  show _ = if (decide (c.readPos = c.writePos) && !c.terminated) = true then _ else _
  by_cases hempty : (decide (c.readPos = c.writePos) && !c.terminated) = true
  · rw [if_pos hempty, if_pos hempty]
    exact map_fill hf c
  · rw [if_neg hempty, if_neg hempty]
    rfl

theorem map_readBytes (room : Nat) :
    mapAfter f (c.readBytes room) = (c.mapSource f).readBytes room := by
  rw [readBytes, readBytes, ← map_ensureByte hf]
  by_cases hroom : room = 0
  · rw [if_pos hroom, if_pos hroom]
    rfl
  · rw [if_neg hroom, if_neg hroom]
    show _ = if (!c.replay.isEmpty) = true then _ else _
    by_cases hreplay : (!c.replay.isEmpty) = true
    · rw [if_pos hreplay, if_pos hreplay]
      rfl
    · rw [if_neg hreplay, if_neg hreplay]
      rcases c.ensureByte with ⟨_ | _, c'⟩
      · rfl
      · show mapAfter f (if c'.readPos = c'.writePos then _ else _) =
          if c'.readPos = c'.writePos then _ else _
        by_cases hdone : c'.readPos = c'.writePos
        · rw [if_pos hdone, if_pos hdone]
          rfl
        · rw [if_neg hdone, if_neg hdone]
          rfl

theorem map_skip : mapAfter f c.skip = (c.mapSource f).skip := by
  rw [skip, skip, ← map_next hf]
  rcases c.next with ⟨_ | _ | point, c'⟩
  · rfl
  · rfl
  · rfl

/-! ## Copying out -/

theorem map_extract (start length : Int) :
    mapAfter f (c.extract start length) = (c.mapSource f).extract start length := by
  rw [extract, extract]
  by_cases hnegative : start < 0 ∨ length < 0
  · rw [if_pos hnegative, if_pos hnegative]
    rfl
  · rw [if_neg hnegative, if_neg hnegative]
    simp only [mapSource_lastMatchEnd, mapSource_source, hf.readAt?]
    show _ = if c.delivered < c.lastMatchEnd + start.toNat + length.toNat then _ else _
    by_cases hbeyond : c.delivered < c.lastMatchEnd + start.toNat + length.toNat
    · rw [if_pos hbeyond, if_pos hbeyond]
      rfl
    · rw [if_neg hbeyond, if_neg hbeyond]
      cases ByteSource.readAt? c.source with
      | none =>
        simp only [Option.map_none]
        show _ = if (!c.holds (c.lastMatchEnd + start.toNat : Nat)) = true then _ else _
        by_cases hheld : (!c.holds (c.lastMatchEnd + start.toNat : Nat)) = true
        · rw [if_pos hheld, if_pos hheld]
          rfl
        · rw [if_neg hheld, if_neg hheld]
          exact map_conclude c _ _
      | some readAt =>
        simp only [Option.map_some]
        rcases readAt (c.lastMatchEnd + start.toNat : Nat) length with ⟨_ | data, source⟩
        · rfl
        · show mapAfter f (if data.length ≠ length.toNat then _ else _) =
            if data.length ≠ length.toNat then _ else _
          by_cases hshort : data.length ≠ length.toNat
          · rw [if_pos hshort, if_pos hshort]
            rfl
          · rw [if_neg hshort, if_neg hshort]
            exact map_conclude { c with source } _ _

/-! ## Runs -/

theorem map_perform (step : CursorStep) :
    (c.perform step).mapSource f = (c.mapSource f).perform step := by
  cases step with
  | next => exact congrArg Prod.snd (map_next hf c)
  | readBytes room => exact congrArg Prod.snd (map_readBytes hf c room)
  | extract start length => exact congrArg Prod.snd (map_extract hf c start length)
  | rewind position => exact congrArg Prod.snd (map_rewind c position)
  | skip => exact congrArg Prod.snd (map_skip hf c)
  | fill => exact congrArg Prod.snd (map_fill hf c)

/-- A run over a source is mapped to the run over the other one. -/
theorem map_after (steps : List CursorStep) :
    (c.after steps).mapSource f = (c.mapSource f).after steps := by
  induction steps generalizing c with
  | nil => rfl
  | cons step steps ih =>
    show ((c.perform step).after steps).mapSource f = _
    rw [ih, map_perform hf]
    rfl

end

/-- The same cursor over the source inside. -/
def forget {σ : Type} (c : Cursor (Recorded σ)) : Cursor σ :=
  { c with source := c.source.source }

/-- A run over a recorded source is the run over the source itself. -/
theorem forget_after {σ : Type} [ByteSource σ] (c : Cursor (Recorded σ))
    (steps : List CursorStep) : (c.after steps).forget = c.forget.after steps :=
  map_after Recorded.sourceMap_source c steps

end Cursor

end StreamScan

import StreamScan.Window

/-!
# The window as one sliding byte string

Two blocks are kept so that neither of them ever grows, but what they hold is one stretch of
bytes: `previous`, and then `current` up to the write position.  Seen through this view every
operation of a window is a list operation:

* **`held_compact`** — compaction drops the bytes before the read position.
* **`held_write`** — writing behind the write position appends.
* **`slice_eq`** — a slice is a stretch of the view.
* **`slides`** — the two of compaction and slicing together, for every position inside.

The blocks are addressed by integer positions; the first section says what slicing, splicing and
overwriting are on positions that lie inside.
-/

namespace StreamScan

namespace Block

/-! ## Positions inside a block -/

theorem index_of_le {size n : Nat} (h : n ≤ size) : index size (n : Int) = n := by
  rw [index_natCast]
  exact Nat.min_eq_left h

theorem toList_slice_of_le {b : Block} {i j : Nat} (hi : i ≤ b.size) (hj : j ≤ b.size) :
    (b.slice i j).toList = (b.toList.take j).drop i := by
  rw [toList_slice, index_of_le hi, index_of_le hj, List.drop_take]

theorem toList_splice_of_le {b : Block} (new : Block) {i j : Nat} (hij : i ≤ j) (hj : j ≤ b.size) :
    (b.splice i j new).toList = b.toList.take i ++ new.toList ++ b.toList.drop j := by
  rw [splice, index_of_le (Nat.le_trans hij hj), index_of_le hj]
  simp only [Nat.max_eq_right hij, Array.toList_append, Array.toList_extract,
    List.extract_eq_take_drop, List.drop_zero, Nat.sub_zero]
  rw [List.take_of_length_le (l := b.toList.drop j) (by simp)]

theorem toList_overwrite {b : Block} {i : Nat} {new : Bytes} (h : i + new.length ≤ b.size) :
    (b.overwrite i new).toList = b.toList.take i ++ new ++ b.toList.drop (i + new.length) := by
  have hfit : new.take (b.size - i) = new := List.take_of_length_le (by omega)
  rw [overwrite, hfit]
  simp only [Array.toList_append, Array.toList_extract, List.extract_eq_take_drop,
    List.drop_zero, Nat.sub_zero, List.size_toArray]
  rw [List.take_of_length_le (l := b.toList.drop _) (by simp)]

theorem size_overwrite {b : Block} {i : Nat} {new : Bytes} (h : i ≤ b.size) :
    (b.overwrite i new).size = b.size := by
  simp only [overwrite, Array.size_append, Array.size_extract, List.size_toArray,
    List.length_take]
  omega

theorem take_overwrite {b : Block} {i : Nat} {new : Bytes} (h : i ≤ b.size) :
    (b.overwrite i new).toList.take i = b.toList.take i := by
  have hlength : (b.toList.take i).length = i := by
    rw [List.length_take, Array.length_toList]
    exact Nat.min_eq_left h
  rw [overwrite]
  simp only [Array.toList_append, Array.toList_extract, List.extract_eq_take_drop,
    List.drop_zero, Nat.sub_zero, List.append_assoc]
  exact List.take_left' hlength

end Block

namespace Window

/-! ## The view -/

/-- Both blocks are as large as the capacity says. -/
structure Sized (w : Window) : Prop where
  current : w.current.size = w.capacity
  previous : w.previous.size = w.capacity

/-- The bytes that a window holds when its write position is the given one. -/
def held (w : Window) (writePos : Nat) : Bytes :=
  w.previous.toList ++ w.current.toList.take writePos

variable {w : Window} {readPos writePos : Nat}

theorem sized_ofCapacity (capacity : Nat) : (ofCapacity capacity).Sized :=
  ⟨Array.size_replicate, Array.size_replicate⟩

theorem held_ofCapacity (capacity : Nat) :
    (ofCapacity capacity).held 0 = List.replicate capacity 0 := by
  simp [held, ofCapacity]

/-! ## Compaction -/

/-- The two blocks after a compaction that moves something. -/
theorem compact_blocks (hw : w.Sized) (hpos : 0 < readPos) (hread : readPos ≤ writePos)
    (hwrite : writePos ≤ w.capacity) :
    (w.compact readPos writePos).2.previous.toList =
        w.previous.toList.drop readPos ++ w.current.toList.take readPos ∧
      (w.compact readPos writePos).2.current.toList =
        (w.current.toList.take writePos).drop readPos
          ++ w.current.toList.drop (writePos - readPos) := by
  obtain ⟨capacity, current, previous⟩ := w
  obtain ⟨hcurrent, hprevious⟩ := hw
  simp only at hcurrent hprevious hwrite ⊢
  have hmoves : ¬ ((readPos : Int) ≤ 0) := by omega
  have hunread : (writePos : Int) - (readPos : Int) = ((writePos - readPos : Nat) : Int) := by
    omega
  have hroom : (capacity : Int) - (readPos : Int) = ((capacity - readPos : Nat) : Int) := by
    omega
  simp only [compact, hmoves, if_false, hunread, hroom]
  constructor
  · -- `previous` loses its first bytes and takes those before the read position
    have hhead : (current.slice 0 readPos).toList = current.toList.take readPos := by
      have hslice := Block.toList_slice_of_le (b := current) (Nat.zero_le _)
        (show readPos ≤ current.size by omega)
      simpa using hslice
    by_cases hfull : (readPos : Int) < (capacity : Int)
    · rw [if_pos hfull]
      have htail : (previous.slice readPos previous.size).toList =
          previous.toList.drop readPos := by
        rw [Block.toList_slice_of_le (by omega) (Nat.le_refl _), List.take_of_length_le (by simp)]
      have hshift : (previous.splice 0 ((capacity - readPos : Nat) : Int)
          (previous.slice readPos previous.size)).toList =
            previous.toList.drop readPos ++ previous.toList.drop (capacity - readPos) := by
        have hsplice := Block.toList_splice_of_le (b := previous)
          (previous.slice readPos previous.size) (Nat.zero_le (capacity - readPos))
          (by omega)
        rw [htail] at hsplice
        simpa using hsplice
      generalize previous.splice 0 ((capacity - readPos : Nat) : Int)
        (previous.slice readPos previous.size) = shifted at hshift
      have hlength : (previous.toList.drop readPos).length = capacity - readPos := by
        rw [List.length_drop, Array.length_toList, hprevious]
      have hsize : shifted.size = capacity := by
        rw [← Array.length_toList, hshift, List.length_append, List.length_drop,
          List.length_drop, Array.length_toList, hprevious]
        omega
      have hover : shifted.toList.drop shifted.size = [] :=
        List.drop_eq_nil_of_le (Nat.le_of_eq Array.length_toList)
      rw [Block.toList_splice_of_le _ (by omega) (Nat.le_refl _), hover, hshift, hhead,
        List.take_left' hlength, List.append_nil]
    · rw [if_neg hfull]
      have hall : capacity - readPos = 0 := by omega
      have hover : previous.toList.drop previous.size = [] :=
        List.drop_eq_nil_of_le (Nat.le_of_eq Array.length_toList)
      have hgone : previous.toList.drop readPos = [] :=
        List.drop_eq_nil_of_le (by rw [Array.length_toList]; omega)
      rw [hall, Block.toList_splice_of_le _ (Nat.zero_le _) (Nat.le_refl _), hhead, hover, hgone,
        List.take_zero, List.append_nil]
  · have hsplice := Block.toList_splice_of_le (b := current)
      (current.slice readPos writePos) (Nat.zero_le (writePos - readPos)) (by omega)
    rw [Block.toList_slice_of_le (by omega) (by omega)] at hsplice
    simpa using hsplice

theorem compact_fst (hpos : 0 < readPos) (hread : readPos ≤ writePos) :
    (w.compact readPos writePos).1 = ((writePos - readPos : Nat) : Int) := by
  have hmoves : ¬ ((readPos : Int) ≤ 0) := by omega
  simp only [compact, hmoves, if_false]
  omega

theorem sized_compact (hw : w.Sized) (hpos : 0 < readPos) (hread : readPos ≤ writePos)
    (hwrite : writePos ≤ w.capacity) : (w.compact readPos writePos).2.Sized := by
  obtain ⟨hprevious, hcurrent⟩ := compact_blocks hw hpos hread hwrite
  have hcapacity := capacity_compact w readPos writePos
  constructor
  · rw [hcapacity, ← Array.length_toList, hcurrent]
    simp only [List.length_append, List.length_drop, List.length_take, Array.length_toList,
      hw.current]
    omega
  · rw [hcapacity, ← Array.length_toList, hprevious]
    simp only [List.length_append, List.length_drop, List.length_take, Array.length_toList,
      hw.current, hw.previous]
    omega

/-- Compaction drops the bytes before the read position and no others. -/
theorem held_compact (hw : w.Sized) (hpos : 0 < readPos) (hread : readPos ≤ writePos)
    (hwrite : writePos ≤ w.capacity) :
    (w.compact readPos writePos).2.held (writePos - readPos) =
      (w.held writePos).drop readPos := by
  obtain ⟨hprevious, hcurrent⟩ := compact_blocks hw hpos hread hwrite
  have hlength : ((w.current.toList.take writePos).drop readPos).length =
      writePos - readPos := by
    rw [List.length_drop, List.length_take, Array.length_toList, hw.current,
      Nat.min_eq_left hwrite]
  have hsplit : w.current.toList.take writePos =
      w.current.toList.take readPos ++ (w.current.toList.take writePos).drop readPos := by
    conv => lhs; rw [← List.take_append_drop readPos (w.current.toList.take writePos)]
    rw [List.take_take, Nat.min_eq_left hread]
  rw [held, held, hprevious, hcurrent, List.take_left' hlength, List.append_assoc, ← hsplit,
    List.drop_append_of_le_length]
  rw [Array.length_toList, hw.previous]
  exact Nat.le_trans hread hwrite

/-! ## Writing -/

theorem sized_write {bytes : Bytes} (hw : w.Sized) (hwrite : writePos ≤ w.capacity) :
    (w.write writePos bytes).Sized :=
  ⟨(Block.size_overwrite (by rw [hw.current]; exact hwrite)).trans hw.current, hw.previous⟩

/-- What is written behind the write position is not seen before that position moves. -/
theorem held_write_same {bytes : Bytes} (hw : w.Sized) (hwrite : writePos ≤ w.capacity) :
    (w.write writePos bytes).held writePos = w.held writePos := by
  rw [held, held, write]
  rw [Block.take_overwrite (by rw [hw.current]; exact hwrite)]

/-- Bytes that are written behind the write position are appended. -/
theorem held_write {bytes : Bytes} (hw : w.Sized)
    (hfit : writePos + bytes.length ≤ w.capacity) :
    (w.write writePos bytes).held (writePos + bytes.length) = w.held writePos ++ bytes := by
  have hcurrent := hw.current
  have hlength : (w.current.toList.take writePos ++ bytes).length = writePos + bytes.length := by
    rw [List.length_append, List.length_take, Array.length_toList]
    omega
  rw [held, held, write]
  simp only
  rw [Block.toList_overwrite (by omega), List.take_left' hlength, List.append_assoc]

/-! ## Slices -/

/-- A slice that is held is a stretch of the view, counted from its first byte. -/
theorem slice_eq {offset length total : Nat} (hw : w.Sized) (hwrite : writePos ≤ w.capacity)
    (hlower : total ≤ offset + writePos + w.capacity)
    (hupper : offset + length ≤ total) :
    w.slice offset length total writePos =
      ((w.held writePos).drop (offset + writePos + w.capacity - total)).take length := by
  obtain ⟨capacity, current, previous⟩ := w
  obtain ⟨hcurrent, hprevious⟩ := hw
  simp only at hcurrent hprevious hwrite hlower ⊢
  obtain ⟨base, hbase⟩ : ∃ base, base = offset + writePos + capacity - total := ⟨_, rfl⟩
  have hcast : (offset : Int) - ((total : Int) - (writePos : Int) - (capacity : Int)) = base := by
    omega
  have hpreviousLength : previous.toList.length = capacity := by
    rw [Array.length_toList, hprevious]
  rw [slice, held, ← hbase]
  simp only [hcast]
  by_cases hnewer : (capacity : Int) ≤ base
  · rw [if_pos hnewer]
    have hstart : (base : Int) - (capacity : Int) = ((base - capacity : Nat) : Int) := by omega
    have hstop : ((base - capacity : Nat) : Int) + (length : Int) =
        ((base - capacity + length : Nat) : Int) := by omega
    have hgone : previous.toList.drop base = [] := List.drop_eq_nil_of_le (by omega)
    have hmin : min (base - capacity + length) writePos = base - capacity + length := by omega
    rw [hstart, hstop, Block.toList_slice_of_le (by omega) (by omega), List.drop_append,
      hpreviousLength, hgone, List.nil_append, List.take_drop, List.take_take, hmin]
  · rw [if_neg hnewer]
    by_cases holder : (base : Int) + (length : Int) ≤ capacity
    · rw [if_pos holder]
      have hstop : (base : Int) + (length : Int) = ((base + length : Nat) : Int) := by omega
      rw [hstop, Block.toList_slice_of_le (by omega) (by omega), List.take_drop,
        List.take_append_of_le_length (by omega)]
    · rw [if_neg holder]
      have hhead : (previous.slice base previous.size).toList = previous.toList.drop base := by
        rw [Block.toList_slice_of_le (by omega) (Nat.le_refl _), List.take_of_length_le (by simp)]
      have hheadLength : (previous.slice base previous.size).size = capacity - base := by
        rw [← Array.length_toList, hhead, List.length_drop, hpreviousLength]
      have hrest : (length : Int) - ((previous.slice base previous.size).size : Int) =
          ((base + length - capacity : Nat) : Int) := by omega
      have htail : (current.slice 0 ((base + length - capacity : Nat) : Int)).toList =
          current.toList.take (base + length - capacity) := by
        have hslice := Block.toList_slice_of_le (b := current) (Nat.zero_le _)
          (show base + length - capacity ≤ current.size by omega)
        simpa using hslice
      simp only [hrest, hhead, htail]
      have hwhole : (previous.toList.drop base).take length = previous.toList.drop base :=
        List.take_of_length_le (by rw [List.length_drop]; omega)
      have hmin : min (length - (capacity - base)) writePos = base + length - capacity := by omega
      rw [List.drop_append_of_le_length (by omega), List.take_append, List.length_drop,
        hpreviousLength, hwhole, List.take_take, hmin]

/-! ## The two blocks as one string -/

theorem length_held (hw : w.Sized) (hwrite : writePos ≤ w.capacity) :
    (w.held writePos).length = w.capacity + writePos := by
  rw [held, List.length_append, List.length_take, Array.length_toList, Array.length_toList,
    hw.previous, hw.current, Nat.min_eq_left hwrite]

/-- What a compaction answers with, and what it leaves, whether it moves something or not. -/
structure Compacted (w : Window) (readPos writePos : Nat) (answer : Int × Window) : Prop where
  unread : answer.1 = ((writePos - readPos : Nat) : Int)
  capacity : answer.2.capacity = w.capacity
  sized : answer.2.Sized
  held : answer.2.held (writePos - readPos) = (w.held writePos).drop readPos

theorem compacted_compact (hw : w.Sized) (hread : readPos ≤ writePos)
    (hwrite : writePos ≤ w.capacity) :
    w.Compacted readPos writePos (w.compact readPos writePos) := by
  rcases Nat.eq_zero_or_pos readPos with rfl | hpos
  · -- nothing was read, so nothing moves
    rw [Int.natCast_zero, compact_zero]
    exact ⟨rfl, rfl, hw, rfl⟩
  · exact ⟨compact_fst hpos hread, capacity_compact w readPos writePos,
      sized_compact hw hpos hread hwrite, held_compact hw hpos hread hwrite⟩

/-- The blocks of a window are one string of bytes that slides along the stream. -/
structure Slides (w : Window) : Prop where
  /-- Compaction drops the bytes before the read position from the front of the string, and answers
      with the write position that is left. -/
  compact {readPos writePos : Nat} (hread : readPos ≤ writePos) (hwrite : writePos ≤ w.capacity) :
    w.Compacted readPos writePos (w.compact readPos writePos)
  /-- A slice is a stretch of the string, counted from the stream offset of its first byte.  That
      offset is negative as long as less was pulled than the blocks have room for. -/
  slice {writePos length : Nat} {total offset : Int} (hwrite : writePos ≤ w.capacity)
    (htotal : writePos ≤ total) (hlower : w.lower total writePos ≤ offset)
    (hupper : offset + length ≤ total) :
    ∃ place : Nat, (place : Int) = offset - (total - writePos - w.capacity) ∧
      place + length ≤ (w.held writePos).length ∧
      w.slice offset length total writePos = ((w.held writePos).drop place).take length

/-- Whatever the blocks hold, they are one sliding string. -/
theorem slides (hw : w.Sized) : w.Slides where
  compact hread hwrite := compacted_compact hw hread hwrite
  slice {writePos length total offset} hwrite htotal hlower hupper := by
    have hoffset : 0 ≤ offset := Int.le_trans (Int.le_max_right _ _) hlower
    have hfirst : total - writePos - w.capacity ≤ offset :=
      Int.le_trans (Int.le_max_left _ _) hlower
    obtain ⟨offset, rfl⟩ := Int.eq_ofNat_of_zero_le hoffset
    obtain ⟨total, rfl⟩ := Int.eq_ofNat_of_zero_le (Int.le_trans (Int.natCast_nonneg _) htotal)
    refine ⟨offset + writePos + w.capacity - total, by omega, ?_, ?_⟩
    · rw [length_held hw hwrite]
      omega
    · exact slice_eq hw hwrite (by omega) (by omega)

/-- A window of four bytes that is full, with four bytes before them. -/
def oneToEight : Window := ⟨4, #[5, 6, 7, 8], #[1, 2, 3, 4]⟩

/-- Three bytes are read, and the string loses three; a slice that spans both blocks. -/
theorem slides_oneToEight : oneToEight.Sized ∧ oneToEight.Slides ∧
    oneToEight.compact 3 4 = (1, ⟨4, #[8, 6, 7, 8], #[4, 5, 6, 7]⟩) ∧
    oneToEight.slice 4 4 10 4 = [3, 4, 5, 6] := by
  have hsized : oneToEight.Sized := ⟨rfl, rfl⟩
  exact ⟨hsized, slides hsized, by decide, by decide⟩

end Window

end StreamScan

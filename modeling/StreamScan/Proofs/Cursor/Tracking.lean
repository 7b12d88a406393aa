import StreamScan.Cursor
import StreamScan.Proofs.Window.Sliding

/-!
# What a cursor keeps of the bytes it pulled

A cursor has a window, four numbers and a replay, and all of them describe one byte string: the
bytes pulled so far.  `Layout` says how.  The window holds the end of them, with the zeroes it was
made of in front; the next byte to deliver is the one at `delivered`, and it is found in the
replay or, when that is empty, at the read position.

A layout changes in few ways, and each has its lemma:

* **`Layout.compacted`** — the window is compacted.
* **`Layout.receive`** — bytes of the source are written behind the write position.
* **`Layout.reveal`** — bytes that stand there already are counted.
* **`Layout.advance`** — bytes of `current` are delivered.
* **`Layout.replayed`** — bytes of the replay are delivered.
* **`Layout.rewound`** — the position goes back.

`Layout.slice_eq` is what a layout is for: a stretch that is held is a stretch of the stream.
The second half says the same of cursors (`Cursor.Tracks`) for all that they do without asking
their source.
-/

namespace StreamScan

/-- How a window, the positions in it and a replay describe the bytes that were pulled. -/
structure Layout (w : Window) (delivered readPos writePos : Nat) (replay pulled : Bytes) :
    Prop where
  sized : w.Sized
  read_le : readPos ≤ writePos
  write_le : writePos ≤ w.capacity
  write_le_pulled : writePos ≤ pulled.length
  /-- The window holds the newest bytes, after as many zeroes as its capacity. -/
  held : w.held writePos =
    (List.replicate w.capacity 0 ++ pulled).drop (pulled.length - writePos)
  /-- The replay ends where `current` begins. -/
  placed : delivered + replay.length + writePos = pulled.length + readPos
  again : replay <+: pulled.drop delivered
  unread : replay ≠ [] → readPos = 0
  again_le : replay.length ≤ w.capacity

namespace Layout

variable {w : Window} {delivered readPos writePos : Nat} {replay pulled : Bytes}

theorem start (capacity : Nat) : Layout (.ofCapacity capacity) 0 0 0 [] [] where
  sized := Window.sized_ofCapacity capacity
  read_le := Nat.le_refl 0
  write_le := Nat.zero_le _
  write_le_pulled := Nat.le_refl 0
  held := by rw [Window.held_ofCapacity]; simp [Window.ofCapacity]
  placed := rfl
  again := List.nil_prefix
  unread h := absurd rfl h
  again_le := Nat.zero_le _

/-! ## What can be read off -/

theorem delivered_le (h : Layout w delivered readPos writePos replay pulled) :
    delivered ≤ pulled.length := by
  have hplaced := h.placed
  have hread := h.read_le
  omega

/-- A stretch that is held is a stretch of what was pulled. -/
theorem slice_eq (h : Layout w delivered readPos writePos replay pulled) {offset length : Nat}
    (hlower : pulled.length ≤ offset + writePos + w.capacity)
    (hupper : offset + length ≤ pulled.length) :
    w.slice offset length pulled.length writePos = (pulled.drop offset).take length := by
  have hwrite := h.write_le_pulled
  -- what is dropped are the zeroes, and then the bytes before the stretch
  have hskip : pulled.length - writePos + (offset + writePos + w.capacity - pulled.length) =
      w.capacity + offset := by omega
  rw [Window.slice_eq h.sized h.write_le hlower hupper, h.held, List.drop_drop, hskip,
    List.drop_append, List.length_replicate, List.drop_eq_nil_of_le (by simp), List.nil_append,
    Nat.add_sub_cancel_left]

/-- `current`, up to the write position, holds the newest bytes. -/
theorem take_current (h : Layout w delivered readPos writePos replay pulled) :
    w.current.toList.take writePos = pulled.drop (pulled.length - writePos) := by
  have hprevious : w.previous.toList.length = w.capacity := by
    rw [Array.length_toList, h.sized.previous]
  have hskip : pulled.length - writePos + w.capacity - w.capacity = pulled.length - writePos := by
    omega
  have hzeroes : (List.replicate w.capacity (0 : UInt8)).drop
      (pulled.length - writePos + w.capacity) = [] :=
    List.drop_eq_nil_of_le (by rw [List.length_replicate]; omega)
  have hheld := congrArg (List.drop w.capacity) h.held
  rw [Window.held, List.drop_left' hprevious, List.drop_drop, List.drop_append,
    List.length_replicate, hskip, hzeroes, List.nil_append] at hheld
  exact hheld

/-- `previous` holds the bytes just before those of `current`, after zeroes if there are not
    enough of them. -/
theorem previous_eq (h : Layout w delivered readPos writePos replay pulled) :
    w.previous.toList = ((List.replicate w.capacity 0 ++ pulled).drop
      (pulled.length - writePos)).take w.capacity := by
  have hprevious : w.previous.toList.length = w.capacity := by
    rw [Array.length_toList, h.sized.previous]
  rw [← h.held, Window.held, List.take_left' hprevious]

/-- The last bytes of `previous`, as many as there are before `current` and as it has room for. -/
theorem drop_previous (h : Layout w delivered readPos writePos replay pulled) :
    w.previous.toList.drop (w.capacity - min w.capacity (pulled.length - writePos)) =
      (pulled.take (pulled.length - writePos)).drop
        (pulled.length - writePos - min w.capacity (pulled.length - writePos)) := by
  have hkept : min w.capacity (pulled.length - writePos) ≤ pulled.length - writePos :=
    Nat.min_le_right _ _
  have hroom : min w.capacity (pulled.length - writePos) ≤ w.capacity := Nat.min_le_left _ _
  generalize min w.capacity (pulled.length - writePos) = kept at hkept hroom ⊢
  have hskip : pulled.length - writePos + (w.capacity - kept) - w.capacity =
      pulled.length - writePos - kept := by omega
  have hzeroes : (List.replicate w.capacity (0 : UInt8)).drop
      (pulled.length - writePos + (w.capacity - kept)) = [] :=
    List.drop_eq_nil_of_le (by rw [List.length_replicate]; omega)
  rw [h.previous_eq, List.drop_take, List.drop_drop, List.drop_append, hzeroes, List.nil_append,
    List.length_replicate, hskip, List.drop_take, Nat.sub_sub_self hkept, Nat.sub_sub_self hroom]

/-- A stretch of `current` before the write position. -/
theorem extract_current (h : Layout w delivered readPos writePos replay pulled) {i j : Nat}
    (hj : j ≤ writePos) :
    (w.current.extract i j).toList =
      (pulled.drop (pulled.length - writePos + i)).take (j - i) := by
  have htake : (w.current.toList.drop i).take (j - i) =
      ((w.current.toList.take writePos).drop i).take (j - i) := by
    rw [List.drop_take, List.take_take, Nat.min_eq_left (by omega)]
  rw [Array.toList_extract, List.extract_eq_take_drop, htake, h.take_current, List.drop_drop]

/-- When nothing is replayed, the next byte is at the read position. -/
theorem delivered_eq (h : Layout w delivered readPos writePos [] pulled) :
    delivered = pulled.length - writePos + readPos := by
  have hplaced := h.placed
  have hwrite := h.write_le_pulled
  simp only [List.length_nil] at hplaced
  omega

/-- Behind the replay the bytes go on with those of `current`. -/
theorem replay_append (h : Layout w delivered readPos writePos replay pulled) :
    replay ++ pulled.drop (delivered + replay.length) = pulled.drop delivered := by
  obtain ⟨rest, hrest⟩ := h.again
  rw [← List.drop_drop, ← hrest, List.drop_left]

/-! ## What changes it -/

/-- Compaction moves the read position to the front and leaves the bytes as they are. -/
theorem compacted (h : Layout w delivered readPos writePos replay pulled) (hpos : 0 < readPos) :
    Layout (w.compact readPos writePos).2 delivered 0 (writePos - readPos) replay pulled := by
  have hread := h.read_le
  have hwrite := h.write_le
  have hpulled := h.write_le_pulled
  have hplaced := h.placed
  have hcapacity := Window.capacity_compact w readPos writePos
  -- with bytes to replay nothing of `current` would have been read
  have hreplay : replay = [] := by
    by_cases hnil : replay = []
    · exact hnil
    · exact absurd (h.unread hnil) (by omega)
  constructor
  · exact Window.sized_compact h.sized hpos hread hwrite
  · exact Nat.zero_le _
  · rw [hcapacity]
    omega
  · omega
  · rw [Window.held_compact h.sized hpos hread hwrite, h.held, List.drop_drop, hcapacity]
    rw [show pulled.length - writePos + readPos = pulled.length - (writePos - readPos) by omega]
  · omega
  · exact h.again
  · exact fun _ => rfl
  · rw [hcapacity]
    exact h.again_le

/-- Bytes that are written behind the write position, and counted, are pulled. -/
theorem receive (h : Layout w delivered readPos writePos replay pulled) {bytes : Bytes}
    (hfit : writePos + bytes.length ≤ w.capacity) :
    Layout (w.write writePos bytes) delivered readPos (writePos + bytes.length) replay
      (pulled ++ bytes) := by
  have hread := h.read_le
  have hpulled := h.write_le_pulled
  have hplaced := h.placed
  have hdelivered := h.delivered_le
  constructor
  · exact Window.sized_write h.sized h.write_le
  · omega
  · exact hfit
  · rw [List.length_append]
    omega
  · have hskip : (pulled ++ bytes).length - (writePos + bytes.length) =
        pulled.length - writePos := by
      rw [List.length_append]
      omega
    rw [Window.held_write h.sized hfit, h.held, hskip]
    show _ = (List.replicate w.capacity 0 ++ (pulled ++ bytes)).drop _
    have hwithin : pulled.length - writePos ≤ (List.replicate w.capacity 0 ++ pulled).length := by
      rw [List.length_append, List.length_replicate]
      omega
    rw [← List.append_assoc, List.drop_append_of_le_length hwithin]
  · rw [List.length_append]
    omega
  · rw [List.drop_append_of_le_length hdelivered]
    exact h.again.trans (List.prefix_append _ _)
  · exact h.unread
  · exact h.again_le

/-- Bytes that are written behind the write position and not counted are not seen. -/
theorem scribble (h : Layout w delivered readPos writePos replay pulled) (bytes : Bytes) :
    Layout (w.write writePos bytes) delivered readPos writePos replay pulled where
  sized := Window.sized_write h.sized h.write_le
  read_le := h.read_le
  write_le := h.write_le
  write_le_pulled := h.write_le_pulled
  held := (Window.held_write_same h.sized h.write_le).trans h.held
  placed := h.placed
  again := h.again
  unread := h.unread
  again_le := h.again_le

/-- Bytes that stand behind the write position are pulled when they are counted, whoever wrote them
    there. -/
theorem reveal (h : Layout w delivered readPos writePos replay pulled) {n : Nat}
    (hfit : writePos + n ≤ w.capacity) :
    Layout w delivered readPos (writePos + n) replay
      (pulled ++ (w.current.toList.drop writePos).take n) := by
  have hread := h.read_le
  have hpulled := h.write_le_pulled
  have hplaced := h.placed
  have hsize := h.sized.current
  have hlength : ((w.current.toList.drop writePos).take n).length = n := by
    rw [List.length_take, List.length_drop, Array.length_toList]
    omega
  generalize hbytes : (w.current.toList.drop writePos).take n = bytes at hlength
  constructor
  · exact h.sized
  · omega
  · exact hfit
  · rw [List.length_append]
    omega
  · have hskip : (pulled ++ bytes).length - (writePos + n) = pulled.length - writePos := by
      rw [List.length_append]
      omega
    have hwithin : pulled.length - writePos ≤ (List.replicate w.capacity 0 ++ pulled).length := by
      rw [List.length_append]
      omega
    rw [Window.held, List.take_add, hbytes, ← List.append_assoc, ← Window.held, h.held, hskip,
      ← List.append_assoc, List.drop_append_of_le_length hwithin]
  · rw [List.length_append]
    omega
  · rw [List.drop_append_of_le_length h.delivered_le]
    exact h.again.trans (List.prefix_append _ _)
  · exact h.unread
  · exact h.again_le

/-- Bytes of `current` are delivered. -/
theorem advance (h : Layout w delivered readPos writePos [] pulled) {n : Nat}
    (hn : readPos + n ≤ writePos) :
    Layout w (delivered + n) (readPos + n) writePos [] pulled where
  sized := h.sized
  read_le := hn
  write_le := h.write_le
  write_le_pulled := h.write_le_pulled
  held := h.held
  placed := by have hplaced := h.placed; omega
  again := List.nil_prefix
  unread hnil := absurd rfl hnil
  again_le := Nat.zero_le _

/-- Bytes of the replay are delivered. -/
theorem replayed (h : Layout w delivered readPos writePos replay pulled) {n : Nat}
    (hn : n ≤ replay.length) :
    Layout w (delivered + n) readPos writePos (replay.drop n) pulled := by
  have hplaced := h.placed
  constructor
  · exact h.sized
  · exact h.read_le
  · exact h.write_le
  · exact h.write_le_pulled
  · exact h.held
  · rw [List.length_drop]
    omega
  · obtain ⟨rest, hrest⟩ := h.again
    refine ⟨rest, ?_⟩
    rw [← List.drop_drop, ← hrest, List.drop_append_of_le_length hn]
  · intro hleft
    refine h.unread fun hnil => hleft ?_
    rw [hnil, List.drop_nil]
  · rw [List.length_drop]
    have hle := h.again_le
    omega

/-- A reader takes as much of the replay as it has room for. -/
theorem replayed_take (h : Layout w delivered readPos writePos replay pulled) (room : Nat) :
    Layout w (delivered + (replay.take room).length) readPos writePos (replay.drop room)
      pulled := by
  have hdrop : replay.drop (min room replay.length) = replay.drop room := by
    by_cases hle : room ≤ replay.length
    · rw [Nat.min_eq_left hle]
    · rw [Nat.min_eq_right (by omega), List.drop_length, List.drop_eq_nil_of_le (by omega)]
  rw [List.length_take, ← hdrop]
  exact h.replayed (Nat.min_le_right room replay.length)

/-- The position goes back to one in `current`. -/
theorem rewound (h : Layout w delivered readPos writePos replay pulled) {position : Nat}
    (hback : position ≤ delivered) (hstart : pulled.length ≤ position + writePos) :
    Layout w position (position + writePos - pulled.length) writePos [] pulled := by
  have hplaced := h.placed
  have hread := h.read_le
  constructor
  · exact h.sized
  · have hdelivered := h.delivered_le
    omega
  · exact h.write_le
  · exact h.write_le_pulled
  · exact h.held
  · simp only [List.length_nil]
    omega
  · exact List.nil_prefix
  · exact fun hnil => absurd rfl hnil
  · exact Nat.zero_le _

/-- The position goes back to one in `previous`; the bytes up to `current` are replayed. -/
theorem rewoundBefore (h : Layout w delivered readPos writePos replay pulled) {position : Nat}
    (hstart : position + writePos ≤ pulled.length)
    (hlower : pulled.length ≤ position + writePos + w.capacity) :
    Layout w position 0 writePos
      ((pulled.drop position).take (pulled.length - writePos - position)) pulled := by
  have hwrite := h.write_le_pulled
  have hlength : ((pulled.drop position).take (pulled.length - writePos - position)).length =
      pulled.length - writePos - position := by
    rw [List.length_take, List.length_drop]
    omega
  constructor
  · exact h.sized
  · exact Nat.zero_le _
  · exact h.write_le
  · exact hwrite
  · exact h.held
  · rw [hlength]
    omega
  · exact List.take_prefix _ _
  · exact fun _ => rfl
  · rw [hlength]
    omega

/-- Bytes are delivered from the replay and, when it is used up, from `current`. -/
theorem consume (h : Layout w delivered readPos writePos replay pulled) {n : Nat}
    (hn : readPos + (n - replay.length) ≤ writePos) :
    Layout w (delivered + n) (readPos + (n - min n replay.length)) writePos
      (replay.drop (min n replay.length)) pulled := by
  by_cases hle : n ≤ replay.length
  · rw [Nat.min_eq_left hle, Nat.sub_self, Nat.add_zero]
    exact h.replayed hle
  · -- the replay is used up, and the rest comes from `current`
    have hmin : min n replay.length = replay.length := by omega
    have hrest := h.replayed (Nat.le_refl replay.length)
    rw [List.drop_length] at hrest
    rw [hmin, List.drop_length, show delivered + n =
      delivered + replay.length + (n - replay.length) by omega]
    exact hrest.advance hn

end Layout

/-! ## Cursors -/

namespace Cursor

variable {σ : Type} {c : Cursor σ} {pulled : Bytes}

/-- The bytes that a cursor pulled, and the layout of what it keeps of them. -/
def Tracks (c : Cursor σ) (pulled : Bytes) : Prop :=
  c.sourceTotal = pulled.length ∧
    Layout c.window c.delivered c.readPos c.writePos c.replay pulled

theorem tracks_ofSource (source : σ) (size : Int) : (ofSource source size).Tracks [] :=
  ⟨rfl, Layout.start _⟩

theorem Tracks.currentStart_eq (h : c.Tracks pulled) :
    c.currentStart = pulled.length - c.writePos := by
  rw [currentStart, h.1]

/-- The window reaches back one capacity from the start of `current`. -/
theorem Tracks.lower_eq (h : c.Tracks pulled) : c.lower = c.currentStart - c.capacity := by
  have hwrite := h.2.write_le_pulled
  rw [lower, Window.lower, h.currentStart_eq, h.1]
  show (max ((pulled.length : Int) - c.writePos - c.capacity) 0).toNat = _
  omega

/-- Compaction keeps the layout and moves the read position to the front of `current`. -/
theorem Tracks.compacted (h : c.Tracks pulled) : c.compacted.Tracks pulled := by
  rw [Cursor.compacted]
  by_cases hzero : c.readPos = 0
  · rw [if_pos hzero]
    exact h
  · rw [if_neg hzero]
    obtain ⟨htotal, hlayout⟩ := h
    have hpos : 0 < c.readPos := Nat.pos_of_ne_zero hzero
    refine ⟨htotal, ?_⟩
    show Layout _ c.delivered 0 (c.window.compact c.readPos c.writePos).1.toNat c.replay pulled
    rw [Window.compact_fst hpos hlayout.read_le, Int.toNat_natCast]
    exact hlayout.compacted hpos

/-- What a compaction changes and what it leaves alone. -/
theorem Tracks.compacted_eq (h : c.Tracks pulled) : ∃ window,
    c.compacted = { c with window, readPos := 0, writePos := c.writePos - c.readPos } ∧
      window.capacity = c.capacity := by
  rw [Cursor.compacted]
  by_cases hzero : c.readPos = 0
  · rw [if_pos hzero]
    refine ⟨c.window, ?_, rfl⟩
    rw [hzero, Nat.sub_zero, ← hzero]
  · rw [if_neg hzero]
    refine ⟨(c.window.compact c.readPos c.writePos).2, ?_, Window.capacity_compact _ _ _⟩
    simp only
    rw [Window.compact_fst (Nat.pos_of_ne_zero hzero) h.2.read_le, Int.toNat_natCast]

/-- The bytes that are looked at next are the next ones of the stream, as far as they are there. -/
theorem Tracks.peek_eq (h : c.Tracks pulled) :
    c.peek = (pulled.drop (c.currentStart + c.readPos)).take Utf8.maxLength := by
  have hread := h.2.read_le
  have hwrite := h.2.write_le_pulled
  rw [peek, h.2.extract_current (Nat.min_le_right _ _), h.currentStart_eq]
  by_cases hmany : c.readPos + Utf8.maxLength ≤ c.writePos
  · rw [Nat.min_eq_left hmany, Nat.add_sub_cancel_left]
  · rw [List.take_of_length_le (by rw [List.length_drop]; omega),
      List.take_of_length_le (by rw [List.length_drop]; omega)]

theorem Tracks.length_peek (h : c.Tracks pulled) :
    c.peek.length = min Utf8.maxLength (c.writePos - c.readPos) := by
  have hread := h.2.read_le
  have hwrite := h.2.write_le
  have hsize := h.2.sized.current
  rw [peek, Array.length_toList, Array.size_extract]
  omega

/-- What is read of `current` are the next bytes of the stream. -/
theorem Tracks.take_current (h : c.Tracks pulled) (hreplay : c.replay = []) {stop : Nat}
    (hstart : c.readPos < stop) (hstop : stop ≤ c.writePos) :
    (c.window.current.extract c.readPos stop).toList ≠ [] ∧
      (c.window.current.extract c.readPos stop).toList <+: pulled.drop c.delivered ∧
      (c.window.current.extract c.readPos stop).toList.length = stop - c.readPos := by
  have hlayout := h.2
  have hwrite := hlayout.write_le
  have hsize := hlayout.sized.current
  rw [hreplay] at hlayout
  have hbytes := hlayout.extract_current (i := c.readPos) hstop
  rw [← hlayout.delivered_eq] at hbytes
  have hlength : (c.window.current.extract c.readPos stop).toList.length = stop - c.readPos := by
    rw [Array.length_toList, Array.size_extract]
    omega
  refine ⟨?_, ?_, hlength⟩
  · intro hnil
    rw [hnil, List.length_nil] at hlength
    omega
  · rw [hbytes]
    exact List.take_prefix _ _

/-- With bytes to replay, what can be seen of `current` goes on behind them. -/
theorem Tracks.replay_peek (h : c.Tracks pulled) (hreplay : c.replay ≠ []) :
    c.replay ++ c.peek <+: pulled.drop c.delivered := by
  have hread := h.2.unread hreplay
  have hplaced := h.2.placed
  have hplace : c.currentStart + c.readPos = c.delivered + c.replay.length := by
    rw [h.currentStart_eq]
    omega
  rw [← h.2.replay_append, List.prefix_append_right_inj, h.peek_eq, hplace]
  exact List.take_prefix _ _

/-! ## Going back -/

/-- Which offsets the window holds. -/
theorem Tracks.holds_iff (h : c.Tracks pulled) (offset : Int) :
    c.holds offset = true ↔ 0 ≤ offset ∧ offset ≤ pulled.length ∧
      (pulled.length : Int) ≤ offset + c.writePos + c.capacity := by
  have hwrite := h.2.write_le_pulled
  rw [holds, h.1, Window.contains, Window.lower, Bool.and_eq_true, decide_eq_true_eq,
    decide_eq_true_eq]
  show max (_ - _ - (c.capacity : Int)) 0 ≤ offset ∧ _ ↔ _
  omega

/-- Going back to an offset that is held succeeds and touches only the position. -/
theorem Tracks.rewind_ok (h : c.Tracks pulled) {position : Nat} (hback : position ≤ c.delivered)
    (hheld : pulled.length ≤ position + c.writePos + c.capacity) : ∃ readPos replay,
      c.rewind position = (.ok (), { c with replay, readPos, delivered := position }) ∧
        Layout c.window position readPos c.writePos replay pulled := by
  have hstart := h.currentStart_eq
  have hwrite := h.2.write_le_pulled
  have hdelivered := h.2.delivered_le
  have hforward : ¬ (c.delivered : Int) < (position : Int) := by omega
  rw [rewind, if_neg hforward]
  by_cases hcurrent : (c.currentStart : Int) ≤ (position : Int)
  · rw [if_pos hcurrent]
    refine ⟨position - c.currentStart, [], rfl, ?_⟩
    rw [show position - c.currentStart = position + c.writePos - pulled.length by omega]
    exact h.2.rewound hback (by omega)
  · -- the position lies in `previous`, and the bytes from there up to `current` come again
    rw [if_neg hcurrent]
    have hholds : c.holds position = true := (h.holds_iff position).mpr (by omega)
    have hlength : (c.currentStart : Int) - (position : Int) =
        ((pulled.length - c.writePos - position : Nat) : Int) := by omega
    rw [hholds]
    refine ⟨0, (pulled.drop position).take (pulled.length - c.writePos - position), ?_, ?_⟩
    · simp only [Bool.not_true, Bool.false_eq_true, if_false, hlength, h.1, Int.toNat_natCast]
      rw [h.2.slice_eq hheld (by omega)]
    · exact h.2.rewoundBefore (by omega) hheld

/-- Going back to an offset that is not held is refused. -/
theorem Tracks.rewind_tooFar (h : c.Tracks pulled) {position : Int} (hback : position ≤ c.delivered)
    (hnot : position < 0 ∨ position + c.writePos + c.capacity < pulled.length) :
    c.rewind position = (.error (.rewindTooFar position c.lower), c) := by
  have hstart := h.currentStart_eq
  have hwrite := h.2.write_le_pulled
  have hbefore : ¬ (c.currentStart : Int) ≤ position := by omega
  have hholds : c.holds position = false := by
    cases hcase : c.holds position with
    | false => rfl
    | true =>
      have hheld := (h.holds_iff position).mp hcase
      omega
  rw [rewind, if_neg (Int.not_lt.mpr hback), if_neg hbefore, hholds]
  rfl

/-- Going back to an offset that is not held, or going forward, is refused. -/
theorem Tracks.rewind_error (h : c.Tracks pulled) {position : Int}
    (hnot : (c.delivered : Int) < position ∨ position < 0 ∨
      position + c.writePos + c.capacity < pulled.length) :
    ∃ failure, c.rewind position = (.error failure, c) := by
  by_cases hforward : (c.delivered : Int) < position
  · rw [rewind, if_pos hforward]
    exact ⟨_, rfl⟩
  · exact ⟨_, h.rewind_tooFar (Int.not_lt.mp hforward) (hnot.resolve_left hforward)⟩

/-- Going back leads to a position that was passed, or it is refused and changes nothing. -/
theorem Tracks.rewind (h : c.Tracks pulled) (position : Int) :
    (∃ (p readPos : Nat) (replay : Bytes), position = p ∧ p ≤ c.delivered ∧
        c.rewind position = (.ok (), { c with replay, readPos, delivered := p }) ∧
        Layout c.window p readPos c.writePos replay pulled) ∨
      ∃ failure, c.rewind position = (.error failure, c) := by
  by_cases hok : 0 ≤ position ∧ position ≤ c.delivered ∧
      (pulled.length : Int) ≤ position + c.writePos + c.capacity
  · obtain ⟨p, rfl⟩ := Int.eq_ofNat_of_zero_le hok.1
    have hback : p ≤ c.delivered := by omega
    obtain ⟨readPos, replay, hrewind, hlayout⟩ := h.rewind_ok hback (by omega)
    exact Or.inl ⟨p, readPos, replay, rfl, hback, hrewind, hlayout⟩
  · exact Or.inr (h.rewind_error (by omega))

/-! ## Delivering -/

/-- A code point that is decoded from the replay, or from it and the bytes after it, is taken out
    of both. -/
theorem Tracks.deliverFromReplay (h : c.Tracks pulled) {head : Bytes} {point : Codepoint}
    (hdecode : Utf8.decode head = some point)
    (hhead : head.length ≤ c.replay.length + (c.writePos - c.readPos)) :
    ∃ readPos replay, c.deliverFromReplay head =
        (.ok (some point), { c with replay, readPos, delivered := c.delivered + point.size }) ∧
      Layout c.window (c.delivered + point.size) readPos c.writePos replay pulled := by
  have hread := h.2.read_le
  have hsize := Utf8.decode_size hdecode
  rw [Cursor.deliverFromReplay, hdecode]
  refine ⟨_, _, rfl, ?_⟩
  rw [List.length_take]
  exact h.2.consume (by omega)

/-- Without a replay a code point is taken out of `current`. -/
theorem Tracks.advance (h : c.Tracks pulled) (hreplay : c.replay = []) {n : Nat}
    (hn : c.readPos + n ≤ c.writePos) :
    { c with readPos := c.readPos + n, delivered := c.delivered + n }.Tracks pulled := by
  have hlayout := h.2
  refine ⟨h.1, ?_⟩
  show Layout _ _ _ _ c.replay _
  rw [hreplay] at hlayout ⊢
  exact hlayout.advance hn

/-- A reader of plain bytes takes those of `current` up to some position. -/
theorem Tracks.advance_to (h : c.Tracks pulled) (hreplay : c.replay = []) {stop : Nat}
    (hstart : c.readPos ≤ stop) (hstop : stop ≤ c.writePos) :
    { c with readPos := stop, delivered := c.delivered + (stop - c.readPos) }.Tracks pulled := by
  have hadvance := h.advance hreplay (n := stop - c.readPos) (by omega)
  rw [Nat.add_sub_cancel' hstart] at hadvance
  exact hadvance

/-! ## Copying out of the window -/

section
variable [ByteSource σ] {offset start length stop : Nat}

/-- Without positional reads a match is copied out of the window, if that holds its start. -/
theorem extract_sequential (hsequential : ByteSource.readAt? c.source = none)
    (hoffset : c.lastMatchEnd + start = offset) (hlength : offset + length = stop)
    (hstop : stop ≤ c.delivered) :
    c.extract start length =
      if !c.holds offset then
        (.error (.outsideWindow offset c.lower c.sourceTotal (2 * c.capacity)), c)
      else c.conclude ⟨offset, c.window.slice offset length c.sourceTotal c.writePos⟩ stop := by
  have hnegative : ¬ ((start : Int) < 0 ∨ (length : Int) < 0) := by omega
  have hbeyond : ¬ c.delivered < stop := Nat.not_lt.mpr hstop
  rw [Cursor.extract, if_neg hnegative]
  simp only [Int.toNat_natCast, hoffset, hlength, if_neg hbeyond, hsequential]

/-- A match that begins in the window is copied, and its end becomes the position. -/
theorem Tracks.extract_ok (h : c.Tracks pulled) (hsequential : ByteSource.readAt? c.source = none)
    (hoffset : c.lastMatchEnd + start = offset) (hlength : offset + length = stop)
    (hstop : stop ≤ c.delivered) (hheld : pulled.length ≤ offset + c.writePos + c.capacity) :
    ∃ readPos replay, c.extract start length = (.ok ⟨offset, (pulled.drop offset).take length⟩,
        { c with replay, readPos, delivered := stop, lastMatchEnd := stop }) ∧
      Layout c.window stop readPos c.writePos replay pulled := by
  have hdelivered := h.2.delivered_le
  have hholds : c.holds offset = true := (h.holds_iff offset).mpr (by omega)
  have hslice : c.window.slice offset length c.sourceTotal c.writePos =
      (pulled.drop offset).take length := by
    rw [h.1]
    exact h.2.slice_eq hheld (by omega)
  obtain ⟨readPos, replay, hrewind, hlayout⟩ := h.rewind_ok hstop (by omega)
  refine ⟨readPos, replay, ?_, hlayout⟩
  rw [extract_sequential hsequential hoffset hlength hstop, hholds, hslice, Cursor.conclude,
    hrewind]
  rfl

/-- A match that begins before the window is refused. -/
theorem Tracks.extract_lost (h : c.Tracks pulled) (hsequential : ByteSource.readAt? c.source = none)
    (hoffset : c.lastMatchEnd + start = offset) (hlength : offset + length = stop)
    (hstop : stop ≤ c.delivered) (hlost : offset + c.writePos + c.capacity < pulled.length) :
    c.extract start length =
      (.error (.outsideWindow offset c.lower c.sourceTotal (2 * c.capacity)), c) := by
  have hholds : c.holds offset = false := by
    cases hcase : c.holds offset with
    | false => rfl
    | true =>
      have hheld := (h.holds_iff offset).mp hcase
      omega
  rw [extract_sequential hsequential hoffset hlength hstop, hholds]
  rfl

end

/-! ## What reading the source leaves alone -/

/-- Two cursors that stand at the same place of the stream, with the same bytes to deliver
    again. -/
structure SamePlace (c c' : Cursor σ) : Prop where
  delivered : c'.delivered = c.delivered
  lastMatchEnd : c'.lastMatchEnd = c.lastMatchEnd
  replay : c'.replay = c.replay

theorem SamePlace.refl (c : Cursor σ) : SamePlace c c := ⟨rfl, rfl, rfl⟩

theorem SamePlace.trans {c₁ c₂ c₃ : Cursor σ} (h : SamePlace c₁ c₂) (h' : SamePlace c₂ c₃) :
    SamePlace c₁ c₃ :=
  ⟨h'.delivered.trans h.delivered, h'.lastMatchEnd.trans h.lastMatchEnd,
    h'.replay.trans h.replay⟩

theorem samePlace_compacted (c : Cursor σ) : SamePlace c c.compacted := by
  rw [Cursor.compacted]
  split <;> exact ⟨rfl, rfl, rfl⟩

theorem compacted_readPos (c : Cursor σ) : c.compacted.readPos = 0 := by
  rw [Cursor.compacted]
  by_cases hzero : c.readPos = 0
  · rw [if_pos hzero]
    exact hzero
  · rw [if_neg hzero]

variable [ByteSource σ]

theorem samePlace_pull (attempts : Nat) (c : Cursor σ) : SamePlace c (c.pull attempts).2 := by
  induction attempts generalizing c with
  | zero => exact ⟨rfl, rfl, rfl⟩
  | succ attempts ih =>
    rw [pull]
    split
    · rename_i source _
      have hmoved : SamePlace c { c with source } := ⟨rfl, rfl, rfl⟩
      exact hmoved.trans (ih _)
    · exact ⟨rfl, rfl, rfl⟩
    · simp only
      split
      · exact ⟨rfl, rfl, rfl⟩
      · split <;> exact ⟨rfl, rfl, rfl⟩

/-- A refill does not move the place. -/
theorem samePlace_fill (c : Cursor σ) : SamePlace c c.fill.2 := by
  refine (samePlace_compacted c).trans ?_
  rw [fill]
  split
  · exact SamePlace.refl _
  · split
    · exact SamePlace.refl _
    · exact samePlace_pull maxEmptyReads _

/-- Nor does looking ahead. -/
theorem samePlace_lookahead (fills : Nat) (c : Cursor σ) :
    SamePlace c (c.lookahead fills).2 := by
  induction fills generalizing c with
  | zero => exact SamePlace.refl c
  | succ fills ih =>
    have hfill := samePlace_fill c
    rw [lookahead]
    split
    · rcases hcase : c.fill with ⟨_ | _, c'⟩
      · rw [hcase] at hfill
        exact hfill
      · rw [hcase] at hfill
        exact hfill.trans (ih c')
    · exact SamePlace.refl c

end Cursor

end StreamScan

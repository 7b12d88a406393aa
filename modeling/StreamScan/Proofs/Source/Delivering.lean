import StreamScan.Cursor
import StreamScan.Source.Buffer
import StreamScan.Proofs.Window.Sliding

/-!
# Sources that deliver a stream

A well-behaved source hands out one byte string from its start to its end, in pieces of any size.
It may keep its reader waiting, though not a hundred times in a row, and it says that it is over
when and only when it has handed out everything.  It may also have a positional read, and then
that returns the bytes of the stream.

A source is well-behaved if there is an account of its states that keeps step with it: which bytes
are still to come, and how often in a row the answer was *not yet*.

* **`Reply.Delivers`** — what a reply may be, given the account before and after it.
* **`Account`** — an account that every read keeps.
* **`WellBehaved`** — a source with an account that starts with the whole stream.
* **`Buffer.wellBehaved`** — a payload in memory is well-behaved, unless its portions are empty.
-/

namespace StreamScan

/-- The replies that hand out `rest`: *not yet*, a piece of it, or at its end the count zero.  The
    last two arguments are what the account says afterwards. -/
inductive Reply.Delivers (room idle : Nat) (rest : Bytes) : Reply → Nat → Bytes → Prop
  | notYet (patient : idle + 1 < Cursor.maxEmptyReads) :
    Delivers room idle rest .notYet (idle + 1) rest
  | piece {front back : Bytes} (split : front ++ back = rest) (nonempty : front ≠ [])
    (fits : front.length ≤ room) : Delivers room idle rest (.ofBytes front) 0 back
  | ended (done : rest = []) : Delivers room idle rest (.ofBytes []) 0 []

section
variable {σ : Type} [ByteSource σ]

/-- An account of the states of a source: `R s idle rest` says that in state `s` the bytes `rest`
    are still to come and that the last `idle` replies were *not yet*. -/
structure Account (positional : Bool) (stream : Bytes) (R : σ → Nat → Bytes → Prop) : Prop where
  read {s : σ} {idle room : Nat} {rest : Bytes} (h : R s idle rest) (hroom : 0 < room) :
    ∃ idle' rest', (ByteSource.read s room).1.Delivers room idle rest idle' rest' ∧
      R (ByteSource.read s room).2 idle' rest'
  sequential {s : σ} {idle : Nat} {rest : Bytes} (h : R s idle rest) (hpos : positional = false) :
    ByteSource.readAt? s = none
  readAt {s : σ} {idle : Nat} {rest : Bytes} (h : R s idle rest) (hpos : positional = true) :
    ∃ readAt, ByteSource.readAt? s = some readAt ∧
      ∀ offset length : Nat, offset + length ≤ stream.length →
        ∃ s', readAt offset length = (.ok ((stream.drop offset).take length), s') ∧ R s' idle rest

/-- A source that delivers a stream, with positional reads or without. -/
def WellBehaved (positional : Bool) (stream : Bytes) (source : σ) : Prop :=
  ∃ R, Account positional stream R ∧ R source 0 stream

end

/-! ## Reading on in a block -/

/-- A read that takes what fits delivers it, if it takes a byte at least unless nothing is left. -/
theorem Reply.delivers_take {room size : Nat} {rest : Bytes} (hfits : size ≤ room)
    (hpositive : rest ≠ [] → 0 < size) (idle : Nat) :
    (Reply.ofBytes (rest.take size)).Delivers room idle rest 0 (rest.drop size) := by
  by_cases hdone : rest = []
  · rw [hdone, List.take_nil, List.drop_nil]
    exact .ended rfl
  · refine .piece (List.take_append_drop size rest) ?_ ?_
    · rw [ne_eq, List.take_eq_nil_iff, not_or]
      exact ⟨Nat.ne_of_gt (hpositive hdone), hdone⟩
    · rw [List.length_take]
      omega

/-- The bytes of a block between a position and one that is so much further. -/
theorem Block.toList_extract_add (block : Block) (position size : Nat) :
    (block.extract position (position + size)).toList =
      (block.toList.drop position).take size := by
  rw [Array.toList_extract, List.extract_eq_take_drop, Nat.add_sub_cancel_left]

/-- Behind what was taken at a position stands what was left there. -/
theorem drop_add_length_take (stream : Bytes) (position size : Nat) :
    stream.drop (position + ((stream.drop position).take size).length) =
      (stream.drop position).drop size := by
  rw [← List.drop_drop, List.length_take]
  by_cases hshort : size ≤ (stream.drop position).length
  · rw [Nat.min_eq_left hshort]
  · rw [Nat.min_eq_right (by omega), List.drop_length, List.drop_eq_nil_of_le (by omega)]

/-- What a positional read of a block brings, if it lies inside. -/
theorem Block.toList_slice_add {block : Block} {stream : Bytes} (hblock : block.toList = stream)
    {offset length : Nat} (hle : offset + length ≤ stream.length) :
    (block.slice offset (offset + length : Nat)).toList = (stream.drop offset).take length := by
  have hsize : block.size = stream.length := by rw [← hblock, Array.length_toList]
  rw [Block.toList_slice_of_le (by omega) (by omega), hblock, List.drop_take,
    Nat.add_sub_cancel_left]

/-! ## A payload in memory -/

namespace Buffer

/-- What a buffer has still to hand out. -/
structure Accounts (positional : Bool) (stream : Bytes) (b : Buffer) (rest : Bytes) : Prop where
  payload : b.payload = stream.toArray
  servesPositions : b.servesPositions = positional
  portion : ∀ portion, b.portion = some portion → 0 < portion
  rest_eq : rest = stream.drop b.position

/-- A read into some room asks for a byte at least and for no more than there is room for. -/
theorem requested_le {b : Buffer} (hportion : ∀ portion, b.portion = some portion → 0 < portion)
    {room : Nat} (hroom : 0 < room) :
    ∃ size : Nat, b.requested room = size ∧ 0 < size ∧ size ≤ room := by
  rw [requested]
  cases hcase : b.portion with
  | none => exact ⟨room, rfl, hroom, Nat.le_refl _⟩
  | some portion =>
    have hpositive := hportion portion hcase
    refine ⟨min room portion.toNat, ?_, by omega, Nat.min_le_left _ _⟩
    simp only
    omega

/-- What is taken is the front of what a buffer has to hand out, and leaves the rest of it. -/
theorem Accounts.take {positional : Bool} {stream : Bytes} {b : Buffer} {rest : Bytes}
    (h : Accounts positional stream b rest) (size : Option Int) :
    (b.take size).1 = rest.take (b.granted size) ∧
      Accounts positional stream (b.take size).2 (rest.drop (b.granted size)) := by
  refine ⟨?_, h.payload, h.servesPositions, h.portion, ?_⟩
  · rw [Buffer.take, h.payload]
    simp only [List.extract_toArray, List.extract_eq_take_drop, Nat.add_sub_cancel_left]
    rw [← h.rest_eq]
  · show rest.drop _ = stream.drop (b.position + b.granted size)
    rw [← List.drop_drop, ← h.rest_eq]

theorem Accounts.remaining_eq {positional : Bool} {stream : Bytes} {b : Buffer} {rest : Bytes}
    (h : Accounts positional stream b rest) : b.remaining = rest.length := by
  rw [remaining, h.payload, h.rest_eq, List.size_toArray, List.length_drop]

/-- A read into some room takes a byte at least, unless nothing is left. -/
theorem Accounts.granted_requested {positional : Bool} {stream : Bytes} {b : Buffer} {rest : Bytes}
    (h : Accounts positional stream b rest) {room : Nat} (hroom : 0 < room) :
    b.granted (some (b.requested room)) ≤ room ∧
      (rest ≠ [] → 0 < b.granted (some (b.requested room))) := by
  obtain ⟨size, hrequested, hpositive, hle⟩ := requested_le h.portion hroom
  have hnatural : ¬ ((size : Int) < 0) := by omega
  rw [granted, hrequested, if_neg hnatural, h.remaining_eq, Int.toNat_natCast]
  refine ⟨by omega, fun hsome => ?_⟩
  have hlength := List.length_pos_iff.mpr hsome
  omega

theorem account (positional : Bool) (stream : Bytes) :
    Account positional stream fun b _ rest => Accounts positional stream b rest where
  read {b idle room rest} h hroom := by
    obtain ⟨hle, hpositive⟩ := h.granted_requested hroom
    obtain ⟨htaken, hafter⟩ := h.take (some (b.requested room))
    refine ⟨0, _, ?_, hafter⟩
    show (Reply.ofBytes (b.take (some (b.requested room))).1).Delivers room idle rest 0 _
    rw [htaken]
    exact Reply.delivers_take hle hpositive idle
  sequential {b idle rest} h hpos := by
    show (if b.servesPositions = true then _ else _) = _
    rw [h.servesPositions, hpos]
    rfl
  readAt {b idle rest} h hpos := by
    refine ⟨b.readAt, ?_, fun offset length hle => ⟨b, ?_, h⟩⟩
    · show (if b.servesPositions = true then _ else _) = _
      rw [h.servesPositions, hpos]
      rfl
    · have hnatural : ¬ ((offset : Int) < 0) := by omega
      have hpayload : b.payload.toList = stream := by rw [h.payload]
      rw [readAt, if_neg hnatural, ← Block.toList_slice_add hpayload hle]
      rfl

/-- A buffer delivers its payload, whatever its portions are. -/
theorem wellBehaved {portion : Option Int} (hportion : ∀ size, portion = some size → 0 < size)
    (positional : Bool) (stream : Bytes) :
    WellBehaved positional stream (ofPayload stream portion positional) :=
  ⟨_, account positional stream, rfl, rfl, hportion, rfl⟩

end Buffer

end StreamScan

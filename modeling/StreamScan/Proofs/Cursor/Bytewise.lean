import StreamScan.Proofs.Cursor.Following

/-!
# A cursor over a stream that arrives byte by byte

How much of the past a cursor holds depends on the arrival.  It holds least when the stream arrives
byte by byte: each call then needs a refill, and each refill moves everything that was read out of
`current`.  So `current` begins where the last call began.  This is shown here for streams of ASCII,
where a code point is one byte.

* **`Bytewise`** — sources that hand out one byte at a time.
* **`Drained`** — the state of a cursor between two calls: nothing in its window is unread.
* **`Drained.next`** — a call leaves the cursor drained, and moves `current` up to its start.
-/

namespace StreamScan

/-- A source that hands out one byte at a time. -/
structure Bytewise {σ : Type} [ByteSource σ] (R : σ → Nat → Bytes → Prop) : Prop where
  read {s : σ} {idle room : Nat} {b : UInt8} {rest : Bytes} (h : R s idle (b :: rest))
    (hroom : 0 < room) : ∃ s', ByteSource.read s room = (.ofBytes [b], s') ∧ R s' 0 rest

/-- The states of a buffer with portions of one byte. -/
def Buffer.Sips (stream : Bytes) (b : Buffer) (_idle : Nat) (rest : Bytes) : Prop :=
  b.Accounts false stream rest ∧ b.portion = some 1

theorem Buffer.account_sips (stream : Bytes) : Account false stream (Sips stream) where
  read {b idle room rest} h hroom := by
    have hread : ∃ idle' rest',
        (ByteSource.read b room).1.Delivers room idle rest idle' rest' ∧
          Accounts false stream (ByteSource.read b room).2 rest' :=
      (account false stream).read h.1 hroom
    obtain ⟨idle', rest', hreply, hrest⟩ := hread
    -- a read leaves the portions as they are
    exact ⟨idle', rest', hreply, hrest, h.2⟩
  sequential {b idle rest} h hpos :=
    @Account.sequential _ _ _ _ _ (account false stream) b idle rest h.1 hpos
  readAt _ hpos := nomatch hpos

/-- A buffer with portions of one byte hands out one byte at a time. -/
theorem Buffer.bytewise_sips (stream : Bytes) : Bytewise (Sips stream) where
  read {b idle room byte rest} h hroom := by
    obtain ⟨idle', rest', hreply, hserves⟩ := (account_sips stream).read h hroom
    have hone : b.requested room = 1 := by
      rw [requested, h.2]
      show min (room : Int) 1 = 1
      omega
    have hread : (ByteSource.read b room).1 = .ofBytes (b.take (some 1)).1 := by
      show (b.read room).1 = _
      rw [read, hone]
    have hshort : (b.take (some 1)).1.length ≤ 1 := by
      have hgranted : b.granted (some 1) ≤ 1 := Nat.min_le_left 1 _
      rw [take, Array.length_toList, Array.size_extract]
      omega
    rcases hcase : ByteSource.read b room with ⟨reply, b'⟩
    rw [hcase] at hreply hserves hread
    simp only at hreply hserves hread
    cases hreply with
    | notYet => cases hread
    | piece hsplit hnonempty hfits =>
      rename_i front
      have hfront : front = (b.take (some 1)).1 := (Reply.count.inj hread).2
      have hlength := List.length_pos_iff.mpr hnonempty
      rw [← hfront] at hshort
      obtain ⟨first, rfl⟩ := List.length_eq_one_iff.mp (Nat.le_antisymm hshort hlength)
      obtain ⟨rfl, rfl⟩ := List.cons.inj hsplit
      exact ⟨b', rfl, hserves⟩
    | ended hdone => cases hdone

/-- The start of a payload that is handed out one byte at a time. -/
theorem Buffer.sips_ofPayload (stream : Bytes) :
    Sips stream (ofPayload stream (some 1) false) 0 stream := by
  refine ⟨⟨rfl, rfl, ?_, rfl⟩, rfl⟩
  rintro portion ⟨⟩
  decide

namespace Cursor

variable {σ : Type} [ByteSource σ] {R : σ → Nat → Bytes → Prop} {positional : Bool}
  {stream : Bytes} {c c' : Cursor σ}

/-- Nothing in the window is unread, and the source may have more. -/
structure Drained (R : σ → Nat → Bytes → Prop) (stream : Bytes) (c : Cursor σ) : Prop where
  follows : c.Follows R stream
  replay : c.replay = []
  unread : c.unread = 0
  ended : c.ended = false

namespace Drained

omit [ByteSource σ] in
/-- A drained cursor stands at the end of what was pulled. -/
theorem delivered_eq (h : c.Drained R stream) :
    c.currentStart + c.readPos = c.delivered ∧ c.sourceTotal = c.delivered := by
  have hdelivered := h.follows.within.delivered_eq h.replay
  have hend := h.follows.within.start_add_unread
  rw [h.unread, Nat.add_zero, hdelivered] at hend
  exact ⟨hdelivered, hend.symm⟩

omit [ByteSource σ] in
/-- A drained cursor has to look ahead. -/
theorem wantsMore (h : c.Drained R stream) : c.wantsMore = true := by
  have hpeek := h.follows.within.peek_eq
  have hroomy := h.follows.roomy
  have hunread := h.unread
  have hlength : Utf8.maxLength = 4 := rfl
  rw [hunread, List.take_zero, List.take_nil] at hpeek
  rw [Cursor.unread] at hunread
  rw [Cursor.wantsMore, hpeek, h.follows.terminated_eq, h.ended]
  simp only [Utf8.settled, Bool.not_false, Bool.and_true, Bool.and_eq_true, decide_eq_true_eq]
  omega

/-- The refill of a drained cursor moves `current` up to its position. -/
theorem fill (haccount : Account positional stream R) (h : c.Drained R stream) :
    ∃ c', c.fill = (.ok (), c') ∧ Follows.Refilled R stream c c' ∧
      c'.currentStart = c.delivered := by
  have hroomy := h.follows.roomy
  have hlength : Utf8.maxLength = 4 := rfl
  have hunread := h.unread
  obtain ⟨c₁, hfill, hrefilled⟩ := h.follows.fill haccount (by omega) h.ended
  exact ⟨c₁, hfill, hrefilled, hrefilled.start_eq.trans h.delivered_eq.1⟩

/-- One byte comes in with it, if there is one. -/
theorem fill_byte (hbytewise : Bytewise R) (h : c.Drained R stream) {b : UInt8} {rest : Bytes}
    (hrest : stream.drop c.delivered = b :: rest) (hfill : c.fill = (.ok (), c')) :
    c'.unread = 1 ∧ c'.ended = false := by
  have hcompacted := h.follows.compacted
  obtain ⟨-, hcapacity, -, hwrite, hended, -, htotal, -⟩ := h.follows.within.compacted
  have hroomy := h.follows.roomy
  have hlength : Utf8.maxLength = 4 := rfl
  have hread := compacted_readPos c
  have hserves := hcompacted.serves
  rw [h.unread] at hwrite
  rw [h.ended] at hended
  rw [htotal, h.delivered_eq.2, hrest] at hserves
  have hroom : 0 < c.compacted.capacity - c.compacted.writePos := by omega
  obtain ⟨source, hpiece, -⟩ := hbytewise.read hserves hroom
  have hfull : ¬ c.compacted.capacity ≤ c.compacted.writePos := by omega
  have hover : c.compacted.terminated = false := by rw [hcompacted.terminated_eq, hended]
  rw [Cursor.fill, if_neg hfull, hover, maxEmptyReads, pull, hpiece] at hfill
  obtain ⟨-, rfl⟩ := Prod.mk.inj hfill
  constructor
  · show c.compacted.writePos + 1 - c.compacted.readPos = 1
    rw [hwrite, hread]
  · exact hended

/-- Looking ahead takes one refill, since a byte of ASCII or the end of the stream decides. -/
theorem lookahead (haccount : Account positional stream R) (hbytewise : Bytewise R)
    (hascii : ∀ b ∈ stream, b < 0x80) (h : c.Drained R stream) :
    ∃ c', c.ensureLookahead = (.ok (), c') ∧ Follows.Refilled R stream c c' ∧
      c'.currentStart = c.delivered ∧
      (c.delivered < stream.length → c'.unread = 1 ∧ c'.ended = false) := by
  obtain ⟨c₁, hfill, hrefilled, hstart⟩ := h.fill haccount
  have hplace := hrefilled.follows.within.delivered_eq (hrefilled.same.replay.trans h.replay)
  rw [hrefilled.same.delivered] at hplace
  have hbyte : c.delivered < stream.length → c₁.unread = 1 ∧ c₁.ended = false := by
    intro hmore
    exact h.fill_byte hbytewise (List.drop_eq_getElem_cons hmore) hfill
  have hdecided : c₁.wantsMore = false := by
    by_cases hmore : c.delivered < stream.length
    · have hpeek := hrefilled.follows.within.peek_eq
      rw [hplace, (hbyte hmore).1, List.drop_eq_getElem_cons hmore] at hpeek
      have hsettled : Utf8.settled c₁.peek = true := by
        rw [hpeek]
        exact Utf8.settled_ascii (hascii _ (List.getElem_mem hmore))
      rw [Cursor.wantsMore, hsettled, Bool.not_true, Bool.and_false, Bool.false_and,
        Bool.false_and]
    · -- nothing can have come in, so the source is over
      have hended : c₁.ended = true := by
        rcases hrefilled.more with hended | hless
        · exact hended
        · have htotal := hrefilled.follows.within.total_le
          have hend := hrefilled.follows.within.start_add_unread
          omega
      rw [Cursor.wantsMore, hrefilled.follows.terminated_eq, hended, Bool.not_true, Bool.and_false,
        Bool.false_and]
  refine ⟨c₁, ?_, hrefilled, hstart, hbyte⟩
  rw [ensureLookahead, Utf8.maxLength, Cursor.lookahead, if_pos h.wantsMore, hfill]
  show c₁.lookahead 3 = _
  rw [Cursor.lookahead, hdecided]
  rfl

/-- A call moves `current` up to where it begins, and before the end of the stream it leaves the
    cursor drained. -/
theorem next (haccount : Account positional stream R) (hbytewise : Bytewise R)
    (hascii : ∀ b ∈ stream, b < 0x80) (h : c.Drained R stream) (hnext : c.next.2 = c') :
    c'.currentStart = c.delivered ∧ (c.delivered < stream.length → c'.Drained R stream) := by
  obtain ⟨c₁, hlook, hrefilled, hstart, hbyte⟩ := h.lookahead haccount hbytewise hascii
  obtain ⟨c₂, hnext', hstepped⟩ := h.follows.next haccount
  have hsame : c₂ = c' := by rw [← hnext, hnext']
  subst hsame
  have hplace := hrefilled.follows.within.delivered_eq (hrefilled.same.replay.trans h.replay)
  rw [hrefilled.same.delivered] at hplace
  rw [Cursor.next, h.replay, List.isEmpty_nil, if_pos rfl, nextCurrent, hlook] at hnext'
  simp only at hnext'
  cases hcase : Utf8.decode c₁.peek with
  | none =>
    rw [hcase] at hnext'
    obtain ⟨-, rfl⟩ := Prod.mk.inj hnext'
    refine ⟨hstart, fun hmore => ?_⟩
    have hpeek := hrefilled.follows.within.peek_eq
    rw [hplace, (hbyte hmore).1, List.drop_eq_getElem_cons hmore] at hpeek
    rw [hpeek] at hcase
    cases hcase
  | some point =>
    rw [hcase] at hnext'
    obtain ⟨-, rfl⟩ := Prod.mk.inj hnext'
    refine ⟨hstart, fun hmore => ⟨hstepped.follows, hrefilled.same.replay.trans h.replay, ?_, ?_⟩⟩
    · obtain ⟨hunread, -⟩ := hbyte hmore
      have hsize := (Utf8.decode_size hcase).1
      rw [Cursor.unread] at hunread
      show c₁.writePos - (c₁.readPos + point.size) = 0
      omega
    · exact (hbyte hmore).2

end Drained

omit [ByteSource σ] in
/-- A cursor at the start of a source is drained. -/
theorem drained_ofSource {source : σ} (hsource : R source 0 stream) (size : Int) :
    (ofSource source size).Drained R stream where
  follows := follows_ofSource hsource size
  replay := rfl
  unread := rfl
  ended := rfl

end Cursor

end StreamScan

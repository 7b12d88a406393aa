import StreamScan.Proofs.Cursor.Tracking
import StreamScan.Proofs.Source.Supplying
import StreamScan.Proofs.Utf8.Decoding

/-!
# A cursor in the stream of its source

A source hands out a stream in pieces and then ends or fails.  Its cursor stands somewhere in that
stream, also between two bytes of one sequence: reading plain bytes can stop there, and going back
can lead there.  `Stands` is what a cursor keeps in any case, and it says nothing of code points.

No refill of such a cursor fails.  When nothing is replayed, the lookahead sees enough of the stream
to decode the next code point, and when everything is delivered, the end or the failure is
reported.  A code point that begins in the replay is decoded from the replay and from what the
lookahead sees in `current`; that is enough unless the sequence ends in bytes which have not been
pulled.  Then the cursor is `Torn`, and the first byte of the sequence is replaced.

* **`Stands.fill`**, **`Stands.lookahead`** — refills succeed, and four of them are enough.
* **`Stands.next`** — the next code point is that of the stream, unless the cursor is torn.
* **`Stands.next_of_torn`** — and if it is torn, the first byte is replaced.
-/

namespace StreamScan

namespace Cursor

variable {σ : Type} {R : σ → Nat → Bytes → Prop} {Over : σ → Prop} {last : Option Failure}
  {stream : Bytes} {c c' : Cursor σ}

/-- A cursor in a stream that ends as `last` says: it keeps the newest of the bytes that it pulled,
    and the source has the others, or is over. -/
structure Stands (R : σ → Nat → Bytes → Prop) (Over : σ → Prop) (last : Option Failure)
    (stream : Bytes) (c : Cursor σ) : Prop where
  tracks : c.Tracks (stream.take c.sourceTotal)
  serves : c.terminated = false → R c.source 0 (stream.drop c.sourceTotal)
  done : c.terminated = true →
    Over c.source ∧ c.sourceTotal = stream.length ∧ c.latched = last.map latchedFor
  roomy : Utf8.maxLength ≤ c.capacity

/-- How many bytes of `current` have not been read. -/
def unread (c : Cursor σ) : Nat := c.writePos - c.readPos

/-- What is answered for the code point at the position, or for none at the end of the stream. -/
def answered (last : Option Failure) : Option Codepoint → Except Failure (Option Codepoint)
  | some point => .ok (some point)
  | none =>
    match last with
    | some failure => .error (latchedFor failure)
    | none => .ok none

/-- At a clean end there is no failure to answer. -/
theorem answered_none (point : Option Codepoint) : answered none point = .ok point := by
  cases point with
  | none => rfl
  | some point => rfl

/-- The code point at the position begins before `current` and ends in bytes that have not been
    pulled. -/
def Torn (stream : Bytes) (c : Cursor σ) : Prop :=
  c.delivered < c.currentStart ∧
    c.sourceTotal < c.delivered + (Utf8.decode (stream.drop c.delivered)).elim 0 (·.size)

instance (stream : Bytes) (c : Cursor σ) : Decidable (c.Torn stream) :=
  inferInstanceAs (Decidable (_ ∧ _))

/-- `current` is empty only at the start and at the end of the stream. -/
def Stocked (c : Cursor σ) : Prop :=
  c.writePos = 0 → c.sourceTotal = 0 ∨ c.terminated = true

/-- With the source over, or enough bytes at hand, no refill is called for. -/
theorem wantsMore_eq_false (hread : c.readPos ≤ c.writePos)
    (h : c.terminated = true ∨ Utf8.maxLength ≤ c.unread) : c.wantsMore = false := by
  rw [wantsMore]
  rcases h with hterminated | hlong
  · rw [hterminated, Bool.not_true, Bool.and_false, Bool.false_and]
  · have hfar : ¬ c.writePos < c.readPos + Utf8.maxLength := by
      rw [unread] at hlong
      omega
    rw [decide_eq_false hfar, Bool.false_and, Bool.false_and, Bool.false_and]

/-- A lookahead that sees nothing and wants no more has found the source to be over. -/
theorem Tracks.terminated_of_peek {pulled : Bytes} (h : c.Tracks pulled)
    (hroomy : Utf8.maxLength ≤ c.capacity) (hnothing : c.peek = []) (hwants : c.wantsMore = false) :
    c.readPos = c.writePos ∧ c.terminated = true := by
  have hpeek := h.length_peek
  have hread := h.2.read_le
  have hfour : Utf8.maxLength = 4 := rfl
  rw [hnothing, List.length_nil] at hpeek
  refine ⟨by omega, ?_⟩
  simp only [wantsMore, hnothing, Utf8.settled, Bool.not_false, Bool.and_true,
    Bool.and_eq_false_iff, decide_eq_false_iff_not, Bool.not_eq_false', Nat.not_lt] at hwants
  rcases hwants with (hlong | hterminated) | hfull
  · omega
  · exact hterminated
  · omega

namespace Stands

theorem total_le (h : c.Stands R Over last stream) : c.sourceTotal ≤ stream.length := by
  have htotal := h.tracks.1
  rw [List.length_take] at htotal
  omega

/-- When nothing is replayed, the read position is the position in the stream. -/
theorem delivered_eq (h : c.Stands R Over last stream) (hreplay : c.replay = []) :
    c.currentStart + c.readPos = c.delivered := by
  have hlayout := h.tracks.2
  rw [hreplay] at hlayout
  rw [h.tracks.currentStart_eq, hlayout.delivered_eq]

/-- The next byte of `current` is no later than the position, unless nothing of it was read. -/
theorem front_le (h : c.Stands R Over last stream) :
    c.readPos = 0 ∨ c.currentStart + c.readPos = c.delivered := by
  by_cases hreplay : c.replay = []
  · exact Or.inr (h.delivered_eq hreplay)
  · exact Or.inl (h.tracks.2.unread hreplay)

/-- Where the bytes that have not been read end. -/
theorem start_add_unread (h : c.Stands R Over last stream) :
    c.currentStart + c.readPos + c.unread = c.sourceTotal := by
  have hread := h.tracks.2.read_le
  have hwrite := h.tracks.2.write_le_pulled
  rw [← h.tracks.1] at hwrite
  rw [currentStart, unread]
  omega

/-- What is to be looked at next, as far as it has arrived. -/
theorem peek_eq (h : c.Stands R Over last stream) :
    c.peek = ((stream.drop (c.currentStart + c.readPos)).take c.unread).take Utf8.maxLength := by
  have hend := h.start_add_unread
  rw [h.tracks.peek_eq, List.drop_take]
  congr 2
  omega

/-! ## Refills -/

/-- What a refill does to a cursor: it stands at the same place, and either there is more to read
    or the source is over. -/
structure Refilled (R : σ → Nat → Bytes → Prop) (Over : σ → Prop) (last : Option Failure)
    (stream : Bytes) (c c' : Cursor σ) : Prop where
  stands : c'.Stands R Over last stream
  same : SamePlace c c'
  capacity : c'.capacity = c.capacity
  more : c'.terminated = true ∨ c.unread < c'.unread
  start_eq : c'.currentStart = c.currentStart + c.readPos

/-- A refill leaves something in `current`, unless the source is over. -/
theorem Refilled.stocked (h : Refilled R Over last stream c c') : c'.Stocked := by
  intro hempty
  rcases h.more with hterminated | hless
  · exact Or.inr hterminated
  · rw [unread, unread, hempty, Nat.zero_sub] at hless
    exact absurd hless (Nat.not_lt_zero _)

/-- Moving what was read out of `current` changes nothing of this. -/
theorem compacted (h : c.Stands R Over last stream) :
    c.compacted.Stands R Over last stream ∧ c.compacted.capacity = c.capacity ∧
      c.compacted.unread = c.unread ∧ c.compacted.writePos = c.unread ∧
      c.compacted.ended = c.ended ∧ c.compacted.latched = c.latched ∧
      c.compacted.sourceTotal = c.sourceTotal ∧
      c.compacted.currentStart = c.currentStart + c.readPos := by
  have hread := h.tracks.2.read_le
  have hwrite := h.tracks.2.write_le_pulled
  rw [← h.tracks.1] at hwrite
  have htracks := h.tracks.compacted
  obtain ⟨window, heq, hcapacity⟩ := h.tracks.compacted_eq
  have hstart : c.sourceTotal - (c.writePos - c.readPos) = c.currentStart + c.readPos := by
    rw [currentStart]
    omega
  rw [heq] at htracks ⊢
  refine ⟨⟨htracks, h.serves, h.done, ?_⟩, hcapacity, rfl, rfl, rfl, rfl, rfl, hstart⟩
  show Utf8.maxLength ≤ window.capacity
  rw [hcapacity]
  exact h.roomy

variable [ByteSource σ]

/-- Reading the source brings bytes of the stream, or its end, before patience runs out. -/
theorem pull (hsupply : Supply R Over last) {attempts idle : Nat}
    (henough : maxEmptyReads ≤ idle + attempts) (hidle : idle < maxEmptyReads)
    (hopen : c.terminated = false) (hserves : R c.source idle (stream.drop c.sourceTotal))
    (htracks : c.Tracks (stream.take c.sourceTotal)) (hroomy : Utf8.maxLength ≤ c.capacity)
    (hread : c.readPos = 0) (hroom : c.writePos < c.capacity) :
    ∃ c', c.pull attempts = (.ok (), c') ∧ Refilled R Over last stream c c' := by
  induction attempts generalizing c idle with
  | zero => omega
  | succ attempts ih =>
    have hpositive : 0 < c.capacity - c.writePos := Nat.sub_pos_of_lt hroom
    obtain ⟨hended, hlatched⟩ := ended_latched_of_open hopen
    have hanswer := hsupply hserves hpositive
    obtain ⟨htotal, hlayout⟩ := htracks
    have hlength := htotal
    rw [List.length_take] at hlength
    have hover : stream.drop c.sourceTotal = [] → c.sourceTotal = stream.length := by
      intro hnone
      have hle := List.drop_eq_nil_iff.mp hnone
      omega
    rw [Cursor.pull]
    generalize ByteSource.read c.source (c.capacity - c.writePos) = answer at hanswer ⊢
    obtain ⟨reply, source⟩ := answer
    cases hanswer with
    | notYet hpatient hafter =>
      -- one answer less in patience, and the same bytes still to come
      obtain ⟨c', hpull, hrefilled⟩ :=
        ih (c := { c with source }) (by omega) hpatient hopen hafter ⟨htotal, hlayout⟩ hroomy hread
          hroom
      exact ⟨c', hpull, hrefilled.stands,
        ⟨hrefilled.same.delivered, hrefilled.same.lastMatchEnd, hrefilled.same.replay⟩,
        hrefilled.capacity, hrefilled.more, hrefilled.start_eq⟩
    | piece hsplit hnonempty hfits hafter =>
      rename_i front back
      have hsome := List.length_pos_iff.mpr hnonempty
      have hwritten := hlayout.write_le_pulled
      have hcount : c.sourceTotal + front.length ≤ stream.length := by
        have hrest := congrArg List.length hsplit
        rw [List.length_append, List.length_drop] at hrest
        omega
      have hnegative : ¬ (front.length : Int) < 0 := by omega
      have hzero : ¬ (front.length : Int) = 0 := by omega
      have hdrop : stream.drop (c.sourceTotal + front.length) = back := by
        rw [← List.drop_drop, ← hsplit, List.drop_left]
      have htake : stream.take (c.sourceTotal + front.length) =
          stream.take c.sourceTotal ++ front := by
        rw [List.take_add, ← hsplit, List.take_left]
      refine ⟨{ c with
          source
          window := c.window.write c.writePos front
          writePos := c.writePos + front.length
          sourceTotal := c.sourceTotal + front.length }, ?_, ⟨⟨?_, ?_⟩, ?_, ?_, hroomy⟩,
        ⟨rfl, rfl, rfl⟩, rfl, Or.inr ?_, ?_⟩
      · simp only [Reply.ofBytes, if_neg hnegative, if_neg hzero, Int.toNat_natCast]
      · show c.sourceTotal + front.length = _
        rw [List.length_take, Nat.min_eq_left hcount]
      · show Layout _ _ _ _ _ (stream.take (c.sourceTotal + front.length))
        rw [htake]
        refine hlayout.receive ?_
        show c.writePos + front.length ≤ c.capacity
        omega
      · intro _
        show R source 0 (stream.drop (c.sourceTotal + front.length))
        rw [hdrop]
        exact hafter
      · intro hterminated
        have hcase : c.terminated = true := hterminated
        exact absurd (hopen.symm.trans hcase) Bool.false_ne_true
      · show c.writePos - c.readPos < c.writePos + front.length - c.readPos
        omega
      · show c.sourceTotal + front.length - (c.writePos + front.length) = _
        rw [currentStart]
        omega
    | ended hdone hclean hafter =>
      refine ⟨{ c with source, window := c.window.write c.writePos [], ended := true }, rfl,
        ⟨⟨htotal, hlayout.scribble []⟩, fun hterminated => ?_,
          fun _ => ⟨hafter, hover hdone, ?_⟩, hroomy⟩,
        ⟨rfl, rfl, rfl⟩, rfl, Or.inl rfl, ?_⟩
      · exact absurd hterminated.symm Bool.false_ne_true
      · show c.latched = _
        rw [hlatched, hclean]
        rfl
      · show c.currentStart = _
        rw [hread, Nat.add_zero]
    | failed hdone hcause hafter =>
      rename_i failure
      refine ⟨{ c with source, latched := some (latchedFor failure) }, rfl,
        ⟨⟨htotal, hlayout⟩, fun hterminated => ?_, fun _ => ⟨hafter, hover hdone, ?_⟩, hroomy⟩,
        ⟨rfl, rfl, rfl⟩, rfl, Or.inl ?_, ?_⟩
      · have hcase : (c.ended || true) = false := hterminated
        exact absurd (hcase.symm.trans (Bool.or_true c.ended)) Bool.false_ne_true
      · rw [hcause]
        rfl
      · exact Bool.or_true _
      · show c.currentStart = _
        rw [hread, Nat.add_zero]

/-- A refill succeeds as long as there is room and the source is not over. -/
theorem fill (hsupply : Supply R Over last) (h : c.Stands R Over last stream)
    (hroom : c.unread < c.capacity) (hopen : c.terminated = false) :
    ∃ c', c.fill = (.ok (), c') ∧ Refilled R Over last stream c c' := by
  obtain ⟨hcompacted, hcapacity, hunread, hwrite, hended, hlatched, -, hstart⟩ := h.compacted
  have hread := compacted_readPos c
  have hfull : ¬ c.compacted.capacity ≤ c.compacted.writePos := by omega
  have hopen' : c.compacted.terminated = false := by
    rw [terminated, hended, hlatched]
    exact hopen
  obtain ⟨c', hpull, hrefilled⟩ :=
    pull hsupply (Nat.le_of_eq (Nat.zero_add _).symm) (by decide) hopen' (hcompacted.serves hopen')
      hcompacted.tracks hcompacted.roomy hread (Nat.lt_of_not_le hfull)
  have hfill : c.fill = c.compacted.pull maxEmptyReads := by
    rw [Cursor.fill, if_neg hfull, hopen']
    rfl
  refine ⟨c', hfill.trans hpull, hrefilled.stands, (samePlace_compacted c).trans hrefilled.same,
    hrefilled.capacity.trans hcapacity, ?_, ?_⟩
  · rw [← hunread]
    exact hrefilled.more
  · rw [hrefilled.start_eq, hstart, hread, Nat.add_zero]

/-! ## Looking ahead -/

/-- What a lookahead does to a cursor.  If it moves `current` up, then to the position. -/
structure Looked (R : σ → Nat → Bytes → Prop) (Over : σ → Prop) (last : Option Failure)
    (stream : Bytes) (c c' : Cursor σ) : Prop where
  stands : c'.Stands R Over last stream
  same : SamePlace c c'
  capacity : c'.capacity = c.capacity
  total_le : c.sourceTotal ≤ c'.sourceTotal
  start_eq : c'.currentStart = c.currentStart ∨ c'.currentStart = c.delivered
  stocked : c.Stocked → c'.Stocked

omit [ByteSource σ] in
theorem Looked.refl (h : c.Stands R Over last stream) : Looked R Over last stream c c :=
  ⟨h, SamePlace.refl c, rfl, Nat.le_refl _, Or.inl rfl, id⟩

/-- Looking ahead succeeds, and four refills are always enough. -/
theorem lookahead (hsupply : Supply R Over last) (h : c.Stands R Over last stream) (fills : Nat) :
    ∃ c', c.lookahead fills = (.ok (), c') ∧ Looked R Over last stream c c' ∧
      (c.terminated = true ∨ Utf8.maxLength ≤ fills + c.unread → c'.wantsMore = false) := by
  induction fills generalizing c with
  | zero =>
    refine ⟨c, rfl, .refl h, fun hdone => wantsMore_eq_false h.tracks.2.read_le ?_⟩
    rw [Nat.zero_add] at hdone
    exact hdone
  | succ fills ih =>
    rw [Cursor.lookahead]
    by_cases hwants : c.wantsMore = true
    · rw [if_pos hwants]
      simp only [wantsMore, Bool.and_eq_true, decide_eq_true_eq, Bool.not_eq_true'] at hwants
      obtain ⟨⟨-, hopen⟩, hroom⟩ := hwants
      obtain ⟨c₁, hfill, hrefilled⟩ := h.fill hsupply hroom hopen
      obtain ⟨c₂, hlook, hlooked, hdone⟩ := ih hrefilled.stands
      have hfront := h.front_le
      have hend := h.start_add_unread
      have hend' := hrefilled.stands.start_add_unread
      have hstart := hrefilled.start_eq
      have hstart' := hlooked.start_eq
      have htotal := hlooked.total_le
      have hover := hrefilled.stands.done
      have hle := h.total_le
      rw [hrefilled.same.delivered] at hstart'
      rw [hfill]
      refine ⟨c₂, hlook, ⟨hlooked.stands, hrefilled.same.trans hlooked.same,
        hlooked.capacity.trans hrefilled.capacity, ?_, ?_,
        fun _ => hlooked.stocked hrefilled.stocked⟩, ?_⟩
      · rcases hrefilled.more with hterminated | hless
        · rw [(hover hterminated).2.1] at htotal
          exact Nat.le_trans hle htotal
        · omega
      · omega
      · -- a refill brings a byte or the end, so one refill less is enough after it
        intro henough
        refine hdone ?_
        rcases hrefilled.more with hterminated | hless
        · exact Or.inl hterminated
        · rcases henough with hterminated | hlong
          · exact absurd (hopen.symm.trans hterminated) Bool.false_ne_true
          · exact Or.inr (by omega)
    · rw [if_neg hwants]
      exact ⟨c, rfl, .refl h, fun _ => Bool.eq_false_iff.mpr hwants⟩

omit [ByteSource σ] in
/-- What the lookahead sees decides the next code point as the stream does. -/
theorem decode_peek (h : c.Stands R Over last stream) (hwants : c.wantsMore = false) :
    Utf8.decode c.peek = Utf8.decode (stream.drop (c.currentStart + c.readPos)) := by
  have hread := h.tracks.2.read_le
  have hend := h.start_add_unread
  have hroomy := h.roomy
  have hpeek := h.peek_eq
  generalize hrest : stream.drop (c.currentStart + c.readPos) = rest at hpeek ⊢
  -- four bytes decide in any case
  have hmany : Utf8.maxLength ≤ c.unread → Utf8.decode c.peek = Utf8.decode rest := by
    intro hle
    rw [hpeek, List.take_take, Nat.min_eq_left hle, Utf8.decode_take]
  simp only [wantsMore, Bool.and_eq_false_iff, decide_eq_false_iff_not, Bool.not_eq_false',
    Nat.not_lt] at hwants
  rcases hwants with ((hlong | hsettled) | hterminated) | hfull
  · refine hmany ?_
    rw [unread]
    omega
  · -- what is settled stays
    have happend := Utf8.decode_append_of_settled hsettled
      (rest.drop (min Utf8.maxLength c.unread))
    rw [hpeek, List.take_take, List.take_append_drop] at happend
    rw [hpeek, List.take_take]
    exact happend.symm
  · have hall := (h.done hterminated).2.1
    have hlength : rest.length = c.unread := by
      rw [← hrest, List.length_drop]
      omega
    rw [hpeek, List.take_of_length_le (Nat.le_of_eq hlength), Utf8.decode_take]
  · refine hmany ?_
    rw [unread]
    omega

/-! ## Delivering -/

/-- What delivering a code point does to a cursor.  The end of the stream moves it not. -/
structure Stepped (R : σ → Nat → Bytes → Prop) (Over : σ → Prop) (last : Option Failure)
    (stream : Bytes) (point : Option Codepoint) (c c' : Cursor σ) : Prop where
  stands : c'.Stands R Over last stream
  lastMatchEnd : c'.lastMatchEnd = c.lastMatchEnd
  capacity : c'.capacity = c.capacity
  delivered : c'.delivered = c.delivered + point.elim 0 (·.size)
  start_eq : c'.currentStart = c.currentStart ∨ c'.currentStart = c.delivered
  stocked : c.Stocked → c'.Stocked

omit [ByteSource σ] in
/-- At the end of the stream a cursor reports how it ends. -/
theorem report_eq (h : c.Stands R Over last stream) (hterminated : c.terminated = true) :
    c.report none = answered last none := by
  rw [report, (h.done hterminated).2.2]
  cases last with
  | none => rfl
  | some failure => rfl

/-- When nothing is replayed, the next code point is that of the stream. -/
theorem nextCurrent (hsupply : Supply R Over last) (h : c.Stands R Over last stream)
    (hreplay : c.replay = []) :
    ∃ c', c.nextCurrent = (answered last (Utf8.decode (stream.drop c.delivered)), c') ∧
      Stepped R Over last stream (Utf8.decode (stream.drop c.delivered)) c c' ∧ c'.replay = [] := by
  obtain ⟨c₁, hlook, hlooked, hdone⟩ := h.lookahead hsupply Utf8.maxLength
  have hwants := hdone (Or.inr (Nat.le_add_right _ _))
  have hreplay' : c₁.replay = [] := hlooked.same.replay.trans hreplay
  have hplace := hlooked.stands.delivered_eq hreplay'
  have hdecode := hlooked.stands.decode_peek hwants
  have hroomy := hlooked.stands.roomy
  rw [hplace, hlooked.same.delivered] at hdecode
  rw [Cursor.nextCurrent, ensureLookahead, hlook]
  simp only [hdecode]
  cases hcase : Utf8.decode (stream.drop c.delivered) with
  | none =>
    -- nothing was seen although the lookahead wants no more, so the source is over
    have hnothing : c₁.peek = [] := Utf8.decode_eq_none (hdecode.trans hcase)
    obtain ⟨-, hterminated⟩ := hlooked.stands.tracks.terminated_of_peek hroomy hnothing hwants
    refine ⟨c₁, ?_, ⟨hlooked.stands, hlooked.same.lastMatchEnd, hlooked.capacity,
      hlooked.same.delivered, hlooked.start_eq, hlooked.stocked⟩, hreplay'⟩
    simp only [hlooked.stands.report_eq hterminated]
  | some point =>
    have hsize := Utf8.decode_size (hdecode.trans hcase)
    have hpeek := hlooked.stands.tracks.length_peek
    have hread := hlooked.stands.tracks.2.read_le
    have htracks := hlooked.stands.tracks.advance hreplay' (n := point.size) (by omega)
    refine ⟨_, rfl, ⟨⟨htracks, hlooked.stands.serves, hlooked.stands.done, hroomy⟩,
      hlooked.same.lastMatchEnd, hlooked.capacity, ?_, hlooked.start_eq, hlooked.stocked⟩,
      hreplay'⟩
    show c₁.delivered + point.size = _
    rw [hlooked.same.delivered]
    rfl

omit [ByteSource σ] in
/-- The replay is the stream from the position to the start of `current`. -/
theorem replay_append (h : c.Stands R Over last stream) :
    c.replay ++ stream.drop (c.delivered + c.replay.length) = stream.drop c.delivered := by
  have hprefix : c.replay <+: stream.drop c.delivered := by
    refine h.tracks.2.again.trans ?_
    rw [List.drop_take]
    exact List.take_prefix _ _
  obtain ⟨rest, hrest⟩ := hprefix
  rw [← List.drop_drop, ← hrest, List.drop_left]

omit [ByteSource σ] in
theorem delivered_add_replay (h : c.Stands R Over last stream) (hreplay : c.replay ≠ []) :
    c.delivered + c.replay.length = c.currentStart := by
  have hplaced := h.tracks.2.placed
  have hread := h.tracks.2.unread hreplay
  rw [← h.tracks.1] at hplaced
  rw [currentStart]
  omega

omit [ByteSource σ] in
/-- The position lies before `current` just when something is replayed. -/
theorem lt_start_iff (h : c.Stands R Over last stream) :
    c.delivered < c.currentStart ↔ c.replay ≠ [] := by
  constructor
  · intro hlt hreplay
    have hplace := h.delivered_eq hreplay
    omega
  · intro hreplay
    have hsome := List.length_pos_iff.mpr hreplay
    have hplace := h.delivered_add_replay hreplay
    omega

omit [ByteSource σ] in
/-- The replay and what can be seen of `current` are the stream from the position on, up to four
    bytes of it or up to what was pulled. -/
theorem replay_peek (h : c.Stands R Over last stream) (hreplay : c.replay ≠ []) :
    c.replay ++ c.peek =
      (stream.drop c.delivered).take (c.replay.length + min Utf8.maxLength c.unread) := by
  have hread := h.tracks.2.unread hreplay
  rw [← h.replay_append, List.take_length_add_append, h.peek_eq, hread, Nat.add_zero,
    ← h.delivered_add_replay hreplay, List.take_take]

omit [ByteSource σ] in
/-- A code point that is decoded from the replay and from bytes after it is taken out of both. -/
theorem deliverFromReplay (h : c.Stands R Over last stream) {head : Bytes} {point : Codepoint}
    (hdecode : Utf8.decode head = some point)
    (hhead : head.length ≤ c.replay.length + c.unread) :
    ∃ c', c.deliverFromReplay head = (.ok (some point), c') ∧
      Stepped R Over last stream (some point) c c' := by
  obtain ⟨readPos, replay, hdeliver, hlayout⟩ := h.tracks.deliverFromReplay hdecode hhead
  exact ⟨_, hdeliver, ⟨⟨h.tracks.1, hlayout⟩, h.serves, h.done, h.roomy⟩, rfl, rfl, rfl,
    Or.inl rfl, id⟩

/-- A code point that begins in the replay is that of the stream, unless the cursor is torn. -/
theorem nextReplayed (hsupply : Supply R Over last) (h : c.Stands R Over last stream)
    (hreplay : c.replay ≠ []) :
    ∃ point c', c.nextReplayed = (.ok (some point), c') ∧
      Stepped R Over last stream (some point) c c' ∧
      (Utf8.decode (stream.drop c.delivered) = some point ∨
        c.Torn stream ∧ point = Utf8.replacement) := by
  have hsome := List.length_pos_iff.mpr hreplay
  obtain ⟨point, hpoint⟩ : ∃ point, Utf8.decode (stream.drop c.delivered) = some point := by
    refine Option.isSome_iff_exists.mp (Utf8.decode_isSome ?_)
    rw [← h.replay_append]
    exact List.append_ne_nil_of_left_ne_nil hreplay _
  rw [Cursor.nextReplayed, ensureLookahead]
  by_cases hsettled : Utf8.settled (c.replay.take Utf8.maxLength) = true
  · -- the replay decides
    have hdecode : Utf8.decode (c.replay.take Utf8.maxLength) = some point := by
      rw [← Utf8.decode_append_of_settled hsettled (c.replay.drop Utf8.maxLength ++
        stream.drop (c.delivered + c.replay.length)), ← List.append_assoc, List.take_append_drop,
        h.replay_append]
      exact hpoint
    have hhead : (c.replay.take Utf8.maxLength).length ≤ c.replay.length + c.unread := by
      rw [List.length_take]
      omega
    obtain ⟨c', hdeliver, hstepped⟩ := h.deliverFromReplay hdecode hhead
    rw [if_pos hsettled]
    exact ⟨point, c', hdeliver, hstepped, Or.inl hpoint⟩
  · -- the replay is so short that what follows it is looked at as well
    have hshort : c.replay.take Utf8.maxLength = c.replay := by
      refine List.take_of_length_le (Nat.le_of_not_le fun hlong => hsettled ?_)
      refine Utf8.settled_of_length ?_
      exact Nat.le_of_eq (by rw [List.length_take, Nat.min_eq_left hlong])
    obtain ⟨c₁, hlook, hlooked, -⟩ := h.lookahead hsupply Utf8.maxLength
    have hreplay' : c₁.replay ≠ [] := by
      rw [hlooked.same.replay]
      exact hreplay
    have hread := hlooked.stands.tracks.2.unread hreplay'
    have hseen := hlooked.stands.replay_peek hreplay'
    have hplace := hlooked.stands.delivered_add_replay hreplay'
    have hend := hlooked.stands.start_add_unread
    have htotal := hlooked.total_le
    have hlength := hlooked.stands.tracks.length_peek
    have hunread : c₁.unread = c₁.writePos - c₁.readPos := rfl
    have hhead : (c.replay ++ c₁.peek).length ≤ c₁.replay.length + c₁.unread := by
      rw [List.length_append, hlength, hlooked.same.replay, hunread]
      omega
    -- delivered from where the lookahead has left the cursor
    have hdeliver : ∀ {point' : Codepoint}, Utf8.decode (c.replay ++ c₁.peek) = some point' →
        ∃ c', c₁.deliverFromReplay (c.replay ++ c₁.peek) = (.ok (some point'), c') ∧
          Stepped R Over last stream (some point') c c' := by
      intro point' hdecode
      obtain ⟨c₂, hdeliver, hstepped⟩ := hlooked.stands.deliverFromReplay hdecode hhead
      have hdelivered := hstepped.delivered
      have hstart := hstepped.start_eq
      have hstart' := hlooked.start_eq
      rw [hlooked.same.delivered] at hdelivered hstart
      exact ⟨c₂, hdeliver, hstepped.stands, hstepped.lastMatchEnd.trans hlooked.same.lastMatchEnd,
        hstepped.capacity.trans hlooked.capacity, hdelivered, by omega,
        fun hstocked => hstepped.stocked (hlooked.stocked hstocked)⟩
    rw [hlooked.same.replay, hlooked.same.delivered] at hseen hplace
    rw [if_neg hsettled, hshort, hlook]
    by_cases hall : point.size ≤ c.replay.length + min Utf8.maxLength c₁.unread
    · have hdecode : Utf8.decode (c.replay ++ c₁.peek) = some point := by
        rw [hseen]
        exact Utf8.decode_take_of_size_le hpoint hall
      obtain ⟨c₂, hdeliver, hstepped⟩ := hdeliver hdecode
      exact ⟨point, c₂, hdeliver, hstepped, Or.inl hpoint⟩
    · -- the sequence ends in bytes that were not seen, and then they were not even pulled
      have hdecode : Utf8.decode (c.replay ++ c₁.peek) = some Utf8.replacement := by
        rw [hseen]
        exact (Utf8.decode_take_of_lt_size hpoint (by omega) (Nat.lt_of_not_le hall)).2
      have hsize := Utf8.decode_size_le hpoint
      obtain ⟨c₂, hdeliver, hstepped⟩ := hdeliver hdecode
      refine ⟨Utf8.replacement, c₂, hdeliver, hstepped, Or.inr ⟨⟨h.lt_start_iff.mpr hreplay, ?_⟩,
        rfl⟩⟩
      rw [hpoint]
      show c.sourceTotal < c.delivered + point.size
      omega

/-- The next code point is that of the stream, unless the cursor is torn. -/
theorem next (hsupply : Supply R Over last) (h : c.Stands R Over last stream) :
    ∃ point c', c.next = (answered last point, c') ∧ Stepped R Over last stream point c c' ∧
      (point = Utf8.decode (stream.drop c.delivered) ∨
        c.Torn stream ∧ point = some Utf8.replacement) := by
  rw [Cursor.next]
  by_cases hreplay : c.replay = []
  · obtain ⟨c', hnext, hstepped, -⟩ := h.nextCurrent hsupply hreplay
    rw [if_pos (List.isEmpty_iff.mpr hreplay)]
    exact ⟨_, c', hnext, hstepped, Or.inl rfl⟩
  · obtain ⟨point, c', hnext, hstepped, hpoint⟩ := h.nextReplayed hsupply hreplay
    rw [if_neg (fun hempty => hreplay (List.isEmpty_iff.mp hempty))]
    refine ⟨some point, c', hnext, hstepped, ?_⟩
    rcases hpoint with hdecode | ⟨htorn, rfl⟩
    · exact Or.inl hdecode.symm
    · exact Or.inr ⟨htorn, rfl⟩

/-- A lookahead that wants no more does nothing. -/
theorem lookahead_of_decided (h : c.wantsMore = false) (fills : Nat) :
    c.lookahead fills = (.ok (), c) := by
  cases fills with
  | zero => rfl
  | succ fills => rw [Cursor.lookahead, h, if_neg Bool.false_ne_true]

omit [ByteSource σ] in
/-- When everything was pulled, no sequence ends beyond that. -/
theorem not_torn (hall : c.sourceTotal = stream.length) : ¬ c.Torn stream := by
  rintro ⟨hbefore, hbeyond⟩
  have hstart : c.currentStart ≤ c.sourceTotal := Nat.sub_le _ _
  cases hcase : Utf8.decode (stream.drop c.delivered) with
  | none =>
    rw [hcase] at hbeyond
    have hbeyond' : c.sourceTotal < c.delivered + 0 := hbeyond
    omega
  | some point =>
    rw [hcase] at hbeyond
    have hbeyond' : c.sourceTotal < c.delivered + point.size := hbeyond
    have hsize := (Utf8.decode_size hcase).2
    rw [List.length_drop] at hsize
    omega

omit [ByteSource σ] in
/-- Of a torn sequence something is in `current`. -/
theorem writePos_pos_of_torn (h : c.Stands R Over last stream) (hstocked : c.Stocked)
    (htorn : c.Torn stream) : 0 < c.writePos := by
  refine Nat.pos_of_ne_zero fun hempty => ?_
  rcases hstocked hempty with hstart | hterminated
  · have hbefore := htorn.1
    rw [currentStart, hempty, Nat.sub_zero] at hbefore
    omega
  · exact not_torn (h.done hterminated).2.1 htorn

/-- A torn cursor does not look ahead far enough: the bytes in `current` continue a sequence, and by
    themselves they are settled. -/
theorem next_of_torn (h : c.Stands R Over last stream) (hstocked : c.Stocked)
    (htorn : c.Torn stream) : c.next.1 = .ok (some Utf8.replacement) := by
  have hpositive := h.writePos_pos_of_torn hstocked htorn
  obtain ⟨hbefore, hbeyond⟩ := htorn
  have hreplay := h.lt_start_iff.mp hbefore
  have hsome := List.length_pos_iff.mpr hreplay
  have hread := h.tracks.2.unread hreplay
  have hplace := h.delivered_add_replay hreplay
  have hend := h.start_add_unread
  have hunread : c.unread = c.writePos := by rw [unread, hread, Nat.sub_zero]
  obtain ⟨point, hpoint⟩ : ∃ point, Utf8.decode (stream.drop c.delivered) = some point := by
    refine Option.isSome_iff_exists.mp (Utf8.decode_isSome ?_)
    rw [← h.replay_append]
    exact List.append_ne_nil_of_left_ne_nil hreplay _
  rw [hpoint] at hbeyond
  have hbeyond' : c.sourceTotal < c.delivered + point.size := hbeyond
  have hsize := Utf8.decode_size_le hpoint
  have hfour : Utf8.maxLength = 4 := rfl
  -- the replay does not decide
  have hfront : c.replay = (stream.drop c.delivered).take c.replay.length := by
    rw [← h.replay_append, List.take_left]
  have hopen : Utf8.settled (c.replay.take Utf8.maxLength) = false := by
    rw [List.take_of_length_le (by omega), hfront]
    exact (Utf8.decode_take_of_lt_size hpoint hsome (by omega)).1
  -- the lookahead is content with what is there of `current`
  have hseen : c.peek <+: (stream.drop c.delivered).drop c.replay.length := by
    rw [h.peek_eq, hread, Nat.add_zero, ← hplace, List.take_take, List.drop_drop]
    exact List.take_prefix _ _
  have hdecided : c.wantsMore = false := by
    have hnonempty : c.peek ≠ [] := by
      intro hnil
      have hlength := h.tracks.length_peek
      rw [hnil, List.length_nil] at hlength
      omega
    have hsettled := Utf8.settled_inside hpoint hsome (by omega) hnonempty hseen
    rw [wantsMore, hsettled, Bool.not_true, Bool.and_false, Bool.false_and, Bool.false_and]
  have hdecode : Utf8.decode (c.replay ++ c.peek) = some Utf8.replacement := by
    rw [h.replay_peek hreplay]
    exact (Utf8.decode_take_of_lt_size hpoint (by omega) (by omega)).2
  have hshort : c.replay.take Utf8.maxLength = c.replay := List.take_of_length_le (by omega)
  rw [hshort] at hopen
  rw [Cursor.next, if_neg (fun hempty => hreplay (List.isEmpty_iff.mp hempty)), Cursor.nextReplayed,
    hshort, hopen, if_neg Bool.false_ne_true, ensureLookahead, lookahead_of_decided hdecided]
  simp only [Cursor.deliverFromReplay, hdecode]

end Stands

/-- A cursor at the start of a source that hands out a stream. -/
theorem stands_ofSource {source : σ} (hsource : R source 0 stream) (size : Int) :
    (ofSource source size).Stands R Over last stream where
  tracks := tracks_ofSource source size
  serves _ := hsource
  done h := nomatch h
  roomy := Nat.le_trans (by decide) (Nat.le_max_right size.toNat minCapacity)

theorem stocked_ofSource (source : σ) (size : Int) : (ofSource source size).Stocked :=
  fun _ => Or.inl rfl

end Cursor

end StreamScan

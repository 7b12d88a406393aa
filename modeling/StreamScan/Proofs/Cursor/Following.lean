import StreamScan.Proofs.Cursor.Copying

/-!
# A cursor over a source that delivers a stream

Over a well-behaved source a cursor stands in the stream itself, however that arrives.  What it
delivers next is decoded from the stream at its position, the lookahead always sees enough for
that, and no refill fails.  How much of the past it still holds does depend on the arrival, but
not without bound: the first byte of `current` never comes to lie behind the position at which the
last read began.

* **`Aligned`** — a cursor that stands between code points, whether its stream ends or fails.
* **`Follows`** — the state of a cursor between two operations, in terms of the stream.
* **`Follows.next`** — the next code point is that of the stream.
* **`Follows.rewind`**, **`Follows.extract`**, **`Follows.skip`** — going back, copying out and
  stepping on, and when they succeed.
-/

namespace StreamScan

namespace Cursor

variable {σ : Type} {R : σ → Nat → Bytes → Prop} {positional : Bool} {stream : Bytes}
  {c c' : Cursor σ}

/-! ## Between code points -/

/-- A cursor in a stream that ends as `last` says.  Its position and the start of `current` lie
    between code points. -/
structure Aligned (R : σ → Nat → Bytes → Prop) (Over : σ → Prop) (last : Option Failure)
    (stream : Bytes) (c : Cursor σ) : Prop where
  stands : c.Stands R Over last stream
  position : Utf8.Place stream c.delivered
  front : Utf8.Place stream c.currentStart

namespace Aligned

variable {Over : σ → Prop} {last : Option Failure}

/-- A code point that begins in the replay ends there, since `current` begins between two of
    them. -/
theorem not_torn (h : c.Aligned R Over last stream) : ¬ c.Torn stream := by
  rintro ⟨hbefore, hbeyond⟩
  have hstart : c.currentStart ≤ c.sourceTotal := Nat.sub_le _ _
  cases hcase : Utf8.decode (stream.drop c.delivered) with
  | none =>
    rw [hcase] at hbeyond
    have hbeyond' : c.sourceTotal < c.delivered + 0 := hbeyond
    omega
  | some point =>
    rw [hcase] at hbeyond
    have hbeyond' : c.sourceTotal < c.delivered + point.size := hbeyond
    have hinside := h.position.next_le h.front hbefore hcase
    omega

/-- The next code point is that of the stream, and the cursor comes to the place behind it. -/
theorem next [ByteSource σ] (hsupply : Supply R Over last) (h : c.Aligned R Over last stream) :
    ∃ c', c.next = (answered last (Utf8.decode (stream.drop c.delivered)), c') ∧
      c'.Aligned R Over last stream ∧
      Stands.Stepped R Over last stream (Utf8.decode (stream.drop c.delivered)) c c' := by
  obtain ⟨point, c', hnext, hstepped, hpoint⟩ := h.stands.next hsupply
  obtain rfl := hpoint.resolve_right fun htorn => h.not_torn htorn.1
  refine ⟨c', hnext, ⟨hstepped.stands, ?_, ?_⟩, hstepped⟩
  · rw [hstepped.delivered]
    cases hcase : Utf8.decode (stream.drop c.delivered) with
    | none => exact h.position
    | some point => exact h.position.next hcase
  · rcases hstepped.start_eq with hsame | hmoved
    · rw [hsame]
      exact h.front
    · rw [hmoved]
      exact h.position

end Aligned

/-! ## In a stream that ends -/

/-- The state of a cursor between two operations.  Its position and the start of `current` lie
    between code points of the stream. -/
structure Follows (R : σ → Nat → Bytes → Prop) (stream : Bytes) (c : Cursor σ) : Prop where
  tracks : c.Tracks (stream.take c.sourceTotal)
  serves : R c.source 0 (stream.drop c.sourceTotal)
  ended : c.ended = true → c.sourceTotal = stream.length
  latched : c.latched = none
  roomy : Utf8.maxLength ≤ c.capacity
  position : Utf8.Place stream c.delivered
  front : Utf8.Place stream c.currentStart

namespace Follows

theorem terminated_eq (h : c.Follows R stream) : c.terminated = c.ended := by
  rw [terminated, h.latched]
  exact Bool.or_false _

/-- A cursor that follows a stream stands in it. -/
theorem within (h : c.Follows R stream) : c.Within R stream where
  tracks := h.tracks
  serves _ := h.serves
  done hterminated := by
    have htotal := h.ended (h.terminated_eq.symm.trans hterminated)
    have hserves := h.serves
    rw [htotal, List.drop_length] at hserves
    exact ⟨hserves, htotal, h.latched⟩
  roomy := h.roomy

/-- It follows the stream wherever it stands between code points. -/
theorem of_within (h : c.Within R stream) (hposition : Utf8.Place stream c.delivered)
    (hfront : Utf8.Place stream c.currentStart) : c.Follows R stream where
  tracks := h.tracks
  serves := h.account
  ended hended := by
    have hterminated : c.terminated = true := by rw [terminated, hended, Bool.true_or]
    exact (h.done hterminated).2.1
  latched := by
    cases hterminated : c.terminated with
    | false => exact (ended_latched_of_open hterminated).2
    | true => exact (h.done hterminated).2.2
  roomy := h.roomy
  position := hposition
  front := hfront

theorem aligned (h : c.Follows R stream) :
    c.Aligned R (fun source => R source 0 []) none stream := ⟨h.within, h.position, h.front⟩

/-- What a refill does to a cursor: it stands at the same place, and either there is more to read
    or the source is over. -/
structure Refilled (R : σ → Nat → Bytes → Prop) (stream : Bytes) (c c' : Cursor σ) : Prop where
  follows : c'.Follows R stream
  same : SamePlace c c'
  capacity : c'.capacity = c.capacity
  more : c'.ended = true ∨ c.unread < c'.unread
  start_eq : c'.currentStart = c.currentStart + c.readPos

/-- The next byte of `current` lies between code points as well. -/
theorem place_front (h : c.Follows R stream) : Utf8.Place stream (c.currentStart + c.readPos) := by
  -- bytes of `current` have been read only when nothing is replayed
  rcases h.within.front_le with hzero | hdelivered
  · rw [hzero]
    exact h.front
  · rw [hdelivered]
    exact h.position

theorem compacted (h : c.Follows R stream) : c.compacted.Follows R stream := by
  obtain ⟨hcompacted, -, -, -, -, -, -, hstart⟩ := h.within.compacted
  refine of_within hcompacted ?_ ?_
  · rw [(samePlace_compacted c).delivered]
    exact h.position
  · rw [hstart]
    exact h.place_front

variable [ByteSource σ]

/-- A refill succeeds as long as there is room and the source is not over. -/
theorem fill (haccount : Account positional stream R) (h : c.Follows R stream)
    (hroom : c.unread < c.capacity) (hended : c.ended = false) :
    ∃ c', c.fill = (.ok (), c') ∧ Refilled R stream c c' := by
  have hopen : c.terminated = false := h.terminated_eq.trans hended
  obtain ⟨c', hfill, hrefilled⟩ := Stands.fill haccount.supply h.within hroom hopen
  have hfollows : c'.Follows R stream := by
    refine of_within hrefilled.stands ?_ ?_
    · rw [hrefilled.same.delivered]
      exact h.position
    · rw [hrefilled.start_eq]
      exact h.place_front
  refine ⟨c', hfill, hfollows, hrefilled.same, hrefilled.capacity, ?_, hrefilled.start_eq⟩
  rw [← hfollows.terminated_eq]
  exact hrefilled.more

/-- What delivering the code point at the position does to a cursor.  The end of the stream moves
    it not. -/
structure Stepped (R : σ → Nat → Bytes → Prop) (stream : Bytes) (c c' : Cursor σ) : Prop where
  follows : c'.Follows R stream
  lastMatchEnd : c'.lastMatchEnd = c.lastMatchEnd
  capacity : c'.capacity = c.capacity
  delivered : c'.delivered =
    c.delivered + (Utf8.decode (stream.drop c.delivered)).elim 0 (·.size)
  start_le : c'.currentStart ≤ max c.currentStart c.delivered

/-- The next code point is that of the stream, however the stream arrives. -/
theorem next (haccount : Account positional stream R) (h : c.Follows R stream) :
    ∃ c', c.next = (.ok (Utf8.decode (stream.drop c.delivered)), c') ∧ Stepped R stream c c' := by
  obtain ⟨c', hnext, haligned, hstepped⟩ := h.aligned.next haccount.supply
  refine ⟨c', hnext.trans (by rw [answered_none]),
    of_within haligned.stands haligned.position haligned.front, hstepped.lastMatchEnd,
    hstepped.capacity, hstepped.delivered, ?_⟩
  have hstart := hstepped.start_eq
  omega

/-! ## Going back and copying out -/

/-- What going back to a position does to a cursor. -/
structure Placed (R : σ → Nat → Bytes → Prop) (stream : Bytes) (position : Nat)
    (c c' : Cursor σ) : Prop where
  follows : c'.Follows R stream
  delivered : c'.delivered = position
  capacity : c'.capacity = c.capacity
  start_eq : c'.currentStart = c.currentStart

omit [ByteSource σ] in
/-- Going back succeeds when `current` begins no more than its capacity behind the position. -/
theorem rewind (h : c.Follows R stream) {position : Nat} (hback : position ≤ c.delivered)
    (hheld : c.currentStart ≤ position + c.capacity) (hplace : Utf8.Place stream position) :
    ∃ c', c.rewind position = (.ok (), c') ∧ Placed R stream position c c' := by
  have hstart := h.tracks.currentStart_eq
  obtain ⟨readPos, replay, hrewind, hlayout⟩ := h.tracks.rewind_ok hback (by omega)
  exact ⟨_, hrewind, ⟨⟨h.tracks.1, hlayout⟩, h.serves, h.ended, h.latched, h.roomy, hplace,
    h.front⟩, rfl, rfl, rfl⟩

omit [ByteSource σ] in
theorem conclude (h : c.Follows R stream) (found : Match) {stop : Nat}
    (hback : stop ≤ c.delivered) (hheld : c.currentStart ≤ stop + c.capacity)
    (hplace : Utf8.Place stream stop) :
    ∃ c', c.conclude found stop = (.ok found, c') ∧ Placed R stream stop c c' ∧
      c'.lastMatchEnd = stop := by
  obtain ⟨c₁, hrewind, hplaced⟩ := h.rewind hback hheld hplace
  rw [Cursor.conclude, hrewind]
  exact ⟨_, rfl, ⟨⟨hplaced.follows.tracks, hplaced.follows.serves, hplaced.follows.ended,
    hplaced.follows.latched, hplaced.follows.roomy, hplaced.follows.position,
    hplaced.follows.front⟩, hplaced.delivered, hplaced.capacity, hplaced.start_eq⟩, rfl⟩

omit [ByteSource σ] in
/-- The source may become another one with the same bytes to come. -/
theorem withSource (h : c.Follows R stream) {source : σ}
    (hserves : R source 0 (stream.drop c.sourceTotal)) : { c with source }.Follows R stream :=
  of_within (h.within.withSource hserves) h.position h.front

/-- The offset that the window has to hold for a match to be copied: its start, or with
    positional reads its end. -/
def needed (positional : Bool) (start stop : Nat) : Nat := if positional then stop else start

/-- Copying a match out succeeds when the window holds what it has to, and brings the bytes of the
    stream. -/
theorem extract_ok (haccount : Account positional stream R) (h : c.Follows R stream)
    {offset start length stop : Nat} (hoffset : c.lastMatchEnd + start = offset)
    (hlength : offset + length = stop) (hstop : stop ≤ c.delivered)
    (hplace : Utf8.Place stream stop)
    (hheld : c.currentStart ≤ needed positional offset stop + c.capacity) :
    ∃ c', c.extract start length = (.ok ⟨offset, (stream.drop offset).take length⟩, c') ∧
      Placed R stream stop c c' ∧ c'.lastMatchEnd = stop := by
  cases positional with
  | true =>
    obtain ⟨source, hserves, hextract⟩ :=
      h.within.extract_positional haccount hoffset hlength hstop
    have hmoved := h.withSource hserves
    have hheld' : c.currentStart ≤ stop + c.capacity := hheld
    obtain ⟨c', hconclude, hplaced, hend⟩ :=
      hmoved.conclude ⟨offset, (stream.drop offset).take length⟩ hstop hheld' hplace
    rw [hextract]
    exact ⟨c', hconclude, ⟨hplaced.follows, hplaced.delivered, hplaced.capacity,
      hplaced.start_eq⟩, hend⟩
  | false =>
    have hheld' : c.currentStart ≤ offset + c.capacity := hheld
    have hstart := h.tracks.currentStart_eq
    have hdelivered := h.tracks.2.delivered_le
    have hholds : c.holds (offset : Nat) = true :=
      (h.tracks.holds_iff offset).mpr (by omega)
    obtain ⟨c', hconclude, hplaced, hend⟩ :=
      h.conclude ⟨offset, (stream.drop offset).take length⟩ hstop (by omega) hplace
    rw [h.within.extract_sequential haccount hoffset hlength hstop, hholds,
      h.within.slice_eq hheld' (Nat.le_trans (Nat.le_of_eq hlength) hstop)]
    exact ⟨c', hconclude, hplaced, hend⟩

/-- How copying a match out fails when the window does not hold what it has to: the match is
    refused, or with positional reads the way back to its end. -/
def lossOf (positional : Bool) (c : Cursor σ) (start stop : Nat) : Failure :=
  if positional then .rewindTooFar stop c.lower
  else .outsideWindow start c.lower c.sourceTotal (2 * c.capacity)

/-- Copying a match out fails in this way when the window does not hold what it has to. -/
theorem extract_lost (haccount : Account positional stream R) (h : c.Follows R stream)
    {offset start length stop : Nat} (hoffset : c.lastMatchEnd + start = offset)
    (hlength : offset + length = stop) (hstop : stop ≤ c.delivered)
    (hlost : needed positional offset stop + c.capacity < c.currentStart) :
    ∃ c', c.extract start length = (.error (lossOf positional c offset stop), c') := by
  have hstart := h.tracks.currentStart_eq
  cases positional with
  | true =>
    -- the bytes are read, but there is no going back to the end of the match
    obtain ⟨source, -, hextract⟩ := h.within.extract_positional haccount hoffset hlength hstop
    have hlost' : stop + c.capacity < c.currentStart := hlost
    have hfar : (stop : Int) < 0 ∨
        (stop : Int) + c.writePos + c.capacity < (stream.take c.sourceTotal).length := by omega
    have htracks : { c with source }.Tracks (stream.take c.sourceTotal) := h.tracks
    rw [hextract, Cursor.conclude, htracks.rewind_tooFar (Int.ofNat_le.mpr hstop) hfar]
    exact ⟨_, rfl⟩
  | false =>
    have hlost' : offset + c.capacity < c.currentStart := hlost
    have hsequential := haccount.sequential h.within.account rfl
    exact ⟨c, h.tracks.extract_lost hsequential hoffset hlength hstop (by omega)⟩

/-- Stepping over a code point, or finding the end of the stream. -/
theorem skip (haccount : Account positional stream R) (h : c.Follows R stream) :
    ∃ c', c.skip = (.ok (Utf8.decode (stream.drop c.delivered)).isSome, c') ∧
      c'.Follows R stream ∧ c'.capacity = c.capacity ∧
      c'.currentStart ≤ max c.currentStart c.delivered ∧
      (∀ point, Utf8.decode (stream.drop c.delivered) = some point →
        c'.delivered = c.delivered + point.size ∧ c'.lastMatchEnd = c.delivered + point.size) ∧
      (Utf8.decode (stream.drop c.delivered) = none → c'.delivered = c.delivered) := by
  obtain ⟨c₁, hnext, hstepped⟩ := h.next haccount
  have hfollows := hstepped.follows
  have hdelivered := hstepped.delivered
  rw [Cursor.skip, hnext]
  cases hcase : Utf8.decode (stream.drop c.delivered) with
  | none =>
    rw [hcase] at hdelivered
    exact ⟨c₁, rfl, hfollows, hstepped.capacity, hstepped.start_le,
      fun point hpoint => absurd hpoint.symm (Option.some_ne_none point), fun _ => hdelivered⟩
  | some point =>
    rw [hcase] at hdelivered
    refine ⟨_, rfl, ⟨hfollows.tracks, hfollows.serves, hfollows.ended, hfollows.latched,
      hfollows.roomy, hfollows.position, hfollows.front⟩, hstepped.capacity, hstepped.start_le,
      fun other hother => ?_, fun hnone => absurd hnone (Option.some_ne_none point)⟩
    obtain rfl := Option.some.inj hother
    exact ⟨hdelivered, hdelivered⟩

end Follows

/-- A cursor at the start of a source that delivers a stream. -/
theorem follows_ofSource {source : σ} (hsource : R source 0 stream) (size : Int) :
    (ofSource source size).Follows R stream where
  tracks := tracks_ofSource source size
  serves := hsource
  ended h := nomatch h
  latched := rfl
  roomy := Nat.le_trans (by decide) (Nat.le_max_right size.toNat minCapacity)
  position := Utf8.place_zero stream
  front := Utf8.place_zero stream

end Cursor

end StreamScan

import StreamScan.Proofs.Cursor.Invariant
import StreamScan.Proofs.Cursor.Signals
import StreamScan.Proofs.Cursor.Standing

/-!
# Signals surface last

A cursor that has a signal does not read its source any more, but it may have bytes to deliver:
those that it pulled and has not delivered, and after going back those that it delivers again.  They
come first.  Only when there are none left is the signal reported, and it is reported each time.

What a cursor may be told while its source is not over is a part of this: an answer that delivers
nothing comes from a source that reports less than nothing, or the source was found to be over in
the same step and everything is delivered.

The bytes are followed in the run that records them, `recorded`; its answers are those of the run
itself.

* **`Sound.next_cases`**, **`Sound.readBytes_cases`** — what a reader is answered, in every case.
* **`Sound.next_of_signal`**, **`Sound.readBytes_of_signal`** — what it is answered behind a signal.
* **`Latches`**, **`latches`** — all of it, for every honest source and every run.
-/

namespace StreamScan

namespace Cursor

variable {σ : Type} [ByteSource σ]

/-! ## Refills bring something -/

/-- A refill brings bytes or the end, or it fails because the source reported less than nothing. -/
theorem pull_brings (attempts : Nat) (c : Cursor σ) :
    (∃ k < 0, ∃ c', c.pull attempts = (.error (.negativeCount k), c')) ∨
      ∃ c', c.pull attempts = (.ok (), c') ∧
        (c'.terminated = true ∨ c'.readPos = c.readPos ∧ c.writePos < c'.writePos) := by
  induction attempts generalizing c with
  | zero => exact Or.inr ⟨_, rfl, Or.inl (Bool.or_true _)⟩
  | succ attempts ih =>
    rw [pull]
    rcases ByteSource.read c.source (c.capacity - c.writePos) with
      ⟨⟨reported, written⟩ | _ | failure, source⟩
    · by_cases hnegative : reported < 0
      · simp only [if_pos hnegative]
        exact Or.inl ⟨reported, hnegative, _, rfl⟩
      · by_cases hzero : reported = 0
        · simp only [if_neg hnegative, if_pos hzero]
          exact Or.inr ⟨_, rfl, Or.inl rfl⟩
        · simp only [if_neg hnegative, if_neg hzero]
          refine Or.inr ⟨_, rfl, Or.inr ⟨rfl, ?_⟩⟩
          show c.writePos < c.writePos + reported.toNat
          omega
    · exact ih { c with source }
    · exact Or.inr ⟨_, rfl, Or.inl (Bool.or_true _)⟩

variable {capacity : Nat} {c : Cursor (Recorded σ)}

namespace Sound

/-- A refill that is called for leaves more to read, or the source is over. -/
theorem fill_brings (h : Sound capacity c) (hroom : c.unread < c.capacity)
    (hopen : c.terminated = false) :
    (∃ k < 0, ∃ c', c.fill = (.error (.negativeCount k), c')) ∨
      ∃ c', c.fill = (.ok (), c') ∧ (c'.terminated = true ∨ c.unread < c'.unread) := by
  obtain ⟨window, heq, hcapacity⟩ := h.tracks.compacted_eq
  rcases c.fill_cases with ⟨-, hfill⟩ | ⟨hfull | hover, -⟩
  · rw [hfill, heq]
    rcases pull_brings maxEmptyReads
      { c with window, readPos := 0, writePos := c.writePos - c.readPos } with
      hnegative | ⟨c', hpull, hmore⟩
    · exact Or.inl hnegative
    · refine Or.inr ⟨c', hpull, ?_⟩
      rcases hmore with hterminated | ⟨hread, hwrite⟩
      · exact Or.inl hterminated
      · rw [unread, unread, hread]
        exact Or.inr hwrite
  · rw [heq] at hfull
    have hfull' : c.capacity ≤ c.unread := hcapacity ▸ hfull
    omega
  · rw [hopen] at hover
    cases hover

/-- Looking ahead ends with the next code point decided, unless a refill fails. -/
theorem lookahead_brings (h : Sound capacity c) (fills : Nat) :
    (∃ k < 0, ∃ c', c.lookahead fills = (.error (.negativeCount k), c')) ∨
      ∃ c', c.lookahead fills = (.ok (), c') ∧
        (c.terminated = true ∨ Utf8.maxLength ≤ fills + c.unread → c'.wantsMore = false) := by
  induction fills generalizing c with
  | zero =>
    refine Or.inr ⟨c, rfl, fun hdone => wantsMore_eq_false h.tracks.2.read_le ?_⟩
    rw [Nat.zero_add] at hdone
    exact hdone
  | succ fills ih =>
    rw [Cursor.lookahead]
    by_cases hwants : c.wantsMore = true
    · rw [if_pos hwants]
      simp only [wantsMore, Bool.and_eq_true, decide_eq_true_eq, Bool.not_eq_true'] at hwants
      obtain ⟨⟨-, hopen⟩, hroom⟩ := hwants
      have hfilled := h.fill
      rcases h.fill_brings hroom hopen with ⟨k, hk, c', hfill⟩ | ⟨c', hfill, hmore⟩
      · rw [hfill]
        exact Or.inl ⟨k, hk, c', rfl⟩
      · rw [hfill] at hfilled ⊢
        rcases ih hfilled with hnegative | ⟨c'', hlook, hdone⟩
        · exact Or.inl hnegative
        · refine Or.inr ⟨c'', hlook, fun henough => hdone ?_⟩
          -- a refill brings a byte or the end, so one refill less is enough after it
          rcases hmore with hterminated | hless
          · exact Or.inl hterminated
          · have hless' : c.unread < c'.unread := hless
            rcases henough with hterminated | hlong
            · rw [hopen] at hterminated
              cases hterminated
            · refine Or.inr ?_
              show Utf8.maxLength ≤ fills + c'.unread
              omega
    · rw [if_neg hwants]
      exact Or.inr ⟨c, rfl, fun _ => Bool.eq_false_iff.mpr hwants⟩

/-- A byte is at hand afterwards, or the source is over, unless the refill fails. -/
theorem ensureByte_brings (h : Sound capacity c) (hroomy : 0 < c.capacity) :
    (c.terminated = false ∧ ∃ k < 0, ∃ c', c.ensureByte = (.error (.negativeCount k), c')) ∨
      ∃ c', c.ensureByte = (.ok (), c') ∧ Sound capacity c' ∧ SamePlace c c' ∧
        (c'.readPos = c'.writePos → c'.terminated = true) := by
  rw [Cursor.ensureByte]
  by_cases hneeds : (decide (c.readPos = c.writePos) && !c.terminated) = true
  · rw [if_pos hneeds]
    simp only [Bool.and_eq_true, decide_eq_true_eq, Bool.not_eq_true'] at hneeds
    obtain ⟨hempty, hopen⟩ := hneeds
    have hnone : c.unread = 0 := by rw [unread, hempty, Nat.sub_self]
    have hfilled := h.fill
    have hsame := samePlace_fill c
    rcases h.fill_brings (by omega) hopen with ⟨k, hk, c', hfill⟩ | ⟨c', hfill, hmore⟩
    · exact Or.inl ⟨hopen, k, hk, c', hfill⟩
    · rw [hfill] at hfilled hsame
      refine Or.inr ⟨c', hfill, hfilled, hsame, fun hempty' => hmore.resolve_right fun hless => ?_⟩
      rw [unread, unread, hempty', Nat.sub_self] at hless
      exact Nat.not_lt_zero _ hless
  · rw [if_neg hneeds]
    refine Or.inr ⟨c, rfl, h, SamePlace.refl c, fun hempty => ?_⟩
    rw [decide_eq_true hempty, Bool.true_and, Bool.not_eq_true', Bool.not_eq_false] at hneeds
    exact hneeds

/-! ## What a reader is answered -/

/-- Everything that was handed out is delivered when `current` is read to its end and nothing is
    replayed. -/
theorem delivered_eq_length (h : Sound capacity c) (hreplay : c.replay = [])
    (hempty : c.readPos = c.writePos) : c.delivered = c.source.handed.length := by
  have hlayout := h.tracks.2
  have hwrite := hlayout.write_le_pulled
  rw [hreplay] at hlayout
  rw [hlayout.delivered_eq, hempty]
  omega

/-- Without a replay a call for a code point delivers one, unless the source reports less than
    nothing, or it is over and everything is delivered. -/
theorem nextCurrent_cases (h : Sound capacity c) (hroomy : Utf8.maxLength ≤ c.capacity)
    (hreplay : c.replay = []) :
    (∃ point, c.nextCurrent.1 = .ok (some point)) ∨
      (∃ k < 0, c.nextCurrent.1 = .error (.negativeCount k)) ∨
      c.nextCurrent.2.terminated = true ∧
        c.nextCurrent.2.delivered = c.nextCurrent.2.source.handed.length ∧
        c.nextCurrent.1 = c.nextCurrent.2.report none := by
  have hahead := h.lookahead Utf8.maxLength
  have hsame := samePlace_lookahead Utf8.maxLength c
  rw [Cursor.nextCurrent, ensureLookahead]
  rcases h.lookahead_brings Utf8.maxLength with ⟨k, hk, c', hlook⟩ | ⟨c', hlook, hdone⟩
  · rw [hlook]
    exact Or.inr (Or.inl ⟨k, hk, rfl⟩)
  · rw [hlook] at hahead hsame ⊢
    have hwants : c'.wantsMore = false := hdone (Or.inr (Nat.le_add_right _ _))
    have hcapacity : c'.capacity = c.capacity := hahead.capacity.trans h.capacity.symm
    simp only
    cases hdecode : Utf8.decode c'.peek with
    | some point => exact Or.inl ⟨point, rfl⟩
    | none =>
      obtain ⟨hempty, hterminated⟩ := hahead.tracks.terminated_of_peek (hcapacity ▸ hroomy)
        (Utf8.decode_eq_none hdecode) hwants
      have hall := hahead.delivered_eq_length (hsame.replay.trans hreplay) hempty
      exact Or.inr (Or.inr ⟨hterminated, hall, rfl⟩)

/-- Of a replay something is decoded in any case, unless the source reports less than nothing. -/
theorem nextReplayed_cases (h : Sound capacity c) (hreplay : c.replay ≠ []) :
    (∃ point, c.nextReplayed.1 = .ok (some point)) ∨
      ∃ k < 0, c.nextReplayed.1 = .error (.negativeCount k) := by
  have hdelivers (c' : Cursor (Recorded σ)) {head : Bytes} (hhead : head ≠ []) :
      ∃ point, (c'.deliverFromReplay head).1 = .ok (some point) := by
    obtain ⟨point, hpoint⟩ := Option.isSome_iff_exists.mp (Utf8.decode_isSome hhead)
    rw [Cursor.deliverFromReplay, hpoint]
    exact ⟨point, rfl⟩
  have hfront : c.replay.take Utf8.maxLength ≠ [] := by
    intro hnil
    rcases List.take_eq_nil_iff.mp hnil with hzero | hnone
    · cases hzero
    · exact hreplay hnone
  rw [Cursor.nextReplayed, ensureLookahead]
  by_cases hsettled : Utf8.settled (c.replay.take Utf8.maxLength) = true
  · rw [if_pos hsettled]
    exact Or.inl (hdelivers c hfront)
  · rw [if_neg hsettled]
    rcases h.lookahead_brings Utf8.maxLength with ⟨k, hk, c', hlook⟩ | ⟨c', hlook, -⟩
    · rw [hlook]
      exact Or.inr ⟨k, hk, rfl⟩
    · rw [hlook]
      exact Or.inl (hdelivers c' (List.append_ne_nil_of_left_ne_nil hfront _))

/-- A call for a code point delivers one, unless the source reports less than nothing, or it is over
    and everything is delivered. -/
theorem next_cases (h : Sound capacity c) (hroomy : Utf8.maxLength ≤ c.capacity) :
    (∃ point, c.next.1 = .ok (some point)) ∨ (∃ k < 0, c.next.1 = .error (.negativeCount k)) ∨
      c.next.2.terminated = true ∧ c.next.2.delivered = c.next.2.source.handed.length ∧
        c.next.1 = c.next.2.report none := by
  rw [Cursor.next]
  by_cases hreplay : c.replay = []
  · rw [if_pos (List.isEmpty_iff.mpr hreplay)]
    exact h.nextCurrent_cases hroomy hreplay
  · rw [if_neg (fun hempty => hreplay (List.isEmpty_iff.mp hempty))]
    exact (h.nextReplayed_cases hreplay).imp_right Or.inl

/-- A call for bytes delivers some, and they are the next ones, unless the source reports less than
    nothing, or it is over and everything is delivered. -/
theorem readBytes_cases (h : Sound capacity c) (hroomy : 0 < c.capacity) {room : Nat}
    (hroom : 0 < room) :
    (∃ bytes, bytes ≠ [] ∧ (c.readBytes room).1 = .ok bytes ∧
        bytes <+: (c.readBytes room).2.source.handed.drop c.delivered ∧
        (c.readBytes room).2.delivered = c.delivered + bytes.length) ∨
      (c.terminated = false ∧ ∃ k < 0, (c.readBytes room).1 = .error (.negativeCount k)) ∨
      (c.readBytes room).2.terminated = true ∧ (c.readBytes room).2.delivered = c.delivered ∧
        c.delivered = (c.readBytes room).2.source.handed.length ∧
        (c.readBytes room).1 = (c.readBytes room).2.report [] := by
  rw [Cursor.readBytes, if_neg (Nat.ne_of_gt hroom)]
  by_cases hreplay : c.replay = []
  · rw [hreplay, List.isEmpty_nil, Bool.not_true, if_neg Bool.false_ne_true]
    rcases h.ensureByte_brings hroomy with
      ⟨hopen, k, hk, c', hbyte⟩ | ⟨c', hbyte, hsound, hsame, hover⟩
    · rw [hbyte]
      exact Or.inr (Or.inl ⟨hopen, k, hk, rfl⟩)
    · rw [hbyte]
      simp only
      have hreplay' : c'.replay = [] := hsame.replay.trans hreplay
      by_cases hdone : c'.readPos = c'.writePos
      · rw [if_pos hdone]
        have hall := hsound.delivered_eq_length hreplay' hdone
        exact Or.inr (Or.inr ⟨hover hdone, hsame.delivered, hsame.delivered ▸ hall, rfl⟩)
      · rw [if_neg hdone]
        have hread := hsound.tracks.2.read_le
        obtain ⟨hsome, hnext, hlength⟩ := hsound.tracks.take_current hreplay'
          (show c'.readPos < min (c'.readPos + room) c'.writePos by omega) (Nat.min_le_right _ _)
        rw [hsame.delivered] at hnext
        refine Or.inl ⟨_, hsome, rfl, hnext, ?_⟩
        show c'.delivered + _ = _
        rw [hlength, hsame.delivered]
  · rw [if_pos (by rw [Bool.not_eq_true', List.isEmpty_eq_false_iff]; exact hreplay)]
    refine Or.inl ⟨c.replay.take room, ?_, rfl, (List.take_prefix _ _).trans h.tracks.2.again, rfl⟩
    intro hnil
    rcases List.take_eq_nil_iff.mp hnil with hzero | hnone
    · omega
    · exact hreplay hnone

/-! ## Behind a signal -/

/-- With its source over, a cursor stands in the stream of what was handed out. -/
theorem stands (h : Sound capacity c) (hroomy : Utf8.maxLength ≤ c.capacity)
    (hterminated : c.terminated = true) (hkept : c.latched.map latchedFor = c.latched) :
    c.Stands (fun _ _ _ => False) (fun _ => True) c.latched c.source.handed where
  tracks := by
    rw [h.tracks.1, List.take_length]
    exact h.tracks
  serves hopen := by
    rw [hterminated] at hopen
    exact nomatch hopen
  done _ := ⟨trivial, h.tracks.1, hkept.symm⟩
  roomy := hroomy

/-- Behind a signal the next code point of what was handed out is delivered, and if there is none
    the signal is reported. -/
theorem next_of_signal (h : Sound capacity c) (hroomy : Utf8.maxLength ≤ c.capacity) {s : Signal}
    (hs : c.signal = some s) (hkept : c.latched.map latchedFor = c.latched) :
    (∃ point, Utf8.decode (c.source.handed.drop c.delivered) = some point ∧
        c.next.1 = .ok (some point) ∧ c.next.2.delivered = c.delivered + point.size) ∨
      c.source.handed.drop c.delivered = [] ∧ c.next.1 = s.report none := by
  have hterminated : c.terminated = true := exists_signal_iff.mp ⟨s, hs⟩
  have hstands := h.stands hroomy hterminated hkept
  obtain ⟨point, c', hnext, hstepped, rfl | ⟨htorn, -⟩⟩ :=
    hstands.next (fun _ _ _ _ hserves => hserves.elim)
  · have hdelivered := hstepped.delivered
    rw [hnext]
    cases hdecode : Utf8.decode (c.source.handed.drop c.delivered) with
    | some point =>
      rw [hdecode] at hdelivered
      exact Or.inl ⟨point, rfl, rfl, hdelivered⟩
    | none =>
      refine Or.inr ⟨Utf8.decode_eq_none hdecode, ?_⟩
      exact (hstands.report_eq hterminated).symm.trans (report_of_signal hs none)
  · exact absurd htorn (Stands.not_torn h.tracks.1)

/-- Behind a signal the next bytes of what was handed out are delivered, and if there are none the
    signal is reported. -/
theorem readBytes_of_signal (h : Sound capacity c) (hroomy : 0 < c.capacity) {s : Signal}
    {room : Nat} (hroom : 0 < room) (hs : c.signal = some s)
    (hstays : (c.readBytes room).2.signal = some s)
    (hsame : (c.readBytes room).2.source.handed = c.source.handed) :
    (∃ bytes, bytes ≠ [] ∧ (c.readBytes room).1 = .ok bytes ∧ c.source.handed.drop c.delivered =
        bytes ++ c.source.handed.drop (c.readBytes room).2.delivered) ∨
      c.source.handed.drop c.delivered = [] ∧ (c.readBytes room).1 = s.report [] := by
  rcases h.readBytes_cases hroomy hroom with
    ⟨bytes, hbytes, hanswer, hfront, hdelivered⟩ | ⟨hopen, -⟩ | ⟨-, -, hall, hanswer⟩
  · refine Or.inl ⟨bytes, hbytes, hanswer, ?_⟩
    rw [hsame] at hfront
    obtain ⟨rest, hrest⟩ := hfront
    rw [hdelivered, ← List.drop_drop, ← hrest, List.drop_left]
  · rw [signal_eq_none_iff.mpr hopen] at hs
    exact nomatch hs
  · rw [hsame] at hall
    exact Or.inr ⟨by rw [hall, List.drop_length], hanswer.trans (report_of_signal hstays [])⟩

end Sound

/-! ## Runs -/

/-- What a run leaves to be delivered of the bytes that the source has handed out. -/
def left (source : σ) (size : Int) (steps : List CursorStep) : Bytes :=
  (handedOut source size steps).drop ((ofSource source size).after steps).delivered

/-- A run that leaves nothing to be delivered and keeps a signal, and what its last step was
    answered is the report of that. -/
def Reports (source : σ) (size : Int) (steps : List CursorStep) {α : Type} (atEnd : α)
    (answer : Except Failure α) : Prop :=
  left source size steps = [] ∧
    ∃ s, ((ofSource source size).after steps).signal = some s ∧ answer = s.report atEnd

section
variable (source : σ) (size : Int) (steps : List CursorStep)

/-- The same run with a record of what the source hands out. -/
def recorded : Cursor (Recorded σ) := (ofSource (Recorded.ofSource source) size).after steps

theorem forget_recorded :
    (recorded source size steps).forget = (ofSource source size).after steps :=
  forget_after _ steps

theorem signal_recorded :
    (recorded source size steps).signal = ((ofSource source size).after steps).signal :=
  congrArg signal (forget_recorded source size steps)

theorem next_recorded :
    (recorded source size steps).next.1 = ((ofSource source size).after steps).next.1 := by
  rw [← forget_recorded]
  exact congrArg Prod.fst (map_next Recorded.sourceMap_source (recorded source size steps))

theorem readBytes_recorded (room : Nat) : ((recorded source size steps).readBytes room).1 =
    (((ofSource source size).after steps).readBytes room).1 := by
  rw [← forget_recorded]
  exact congrArg Prod.fst
    (map_readBytes Recorded.sourceMap_source (recorded source size steps) room)

theorem rewind_recorded (position : Int) : ((recorded source size steps).rewind position).1 =
    (((ofSource source size).after steps).rewind position).1 := by
  rw [← forget_recorded]
  exact congrArg Prod.fst
    (map_rewind (f := Recorded.source) (recorded source size steps) position)

theorem recorded_concat (step : CursorStep) :
    recorded source size (steps ++ [step]) = (recorded source size steps).perform step :=
  after_append _ steps [step]

theorem left_recorded : left source size steps =
    (recorded source size steps).source.handed.drop (recorded source size steps).delivered := by
  rw [left, ← forget_recorded]
  rfl

theorem left_concat (step : CursorStep) : left source size (steps ++ [step]) =
    ((recorded source size steps).perform step).source.handed.drop
      ((recorded source size steps).perform step).delivered := by
  rw [left_recorded, recorded_concat]

/-- A failure that is kept would be kept as it is. -/
theorem latched_recorded :
    (recorded source size steps).latched.map latchedFor = (recorded source size steps).latched := by
  have hheard := (heard_after source size steps).signal_eq
  rw [← signal_recorded] at hheard
  cases hlatched : (recorded source size steps).latched with
  | none => rfl
  | some failure =>
    have hsignal := hheard.symm.trans (signal_of_latched hlatched)
    rw [Option.map_some, latchedFor, if_pos (isScan_of_signalOf hsignal)]

/-- Behind a signal nothing more is handed out. -/
theorem handed_of_signal {s : Signal} (hs : ((ofSource source size).after steps).signal = some s)
    (step : CursorStep) : ((recorded source size steps).perform step).source.handed =
      (recorded source size steps).source.handed := by
  have hsame : handedOut source size (steps ++ [step]) = handedOut source size steps := by
    rw [handedOut_eq, handedOut_eq, (silent_after hs [step]).1]
  rw [← recorded_concat]
  exact hsame

end

section
variable {source : σ} (hsource : HonestSource source) (size : Int) (steps : List CursorStep)
include hsource

theorem sound_recorded : Sound (max size.toNat minCapacity) (recorded source size steps) :=
  (sound_ofSource hsource size).after steps

theorem roomy_recorded : Utf8.maxLength ≤ (recorded source size steps).capacity := by
  rw [(sound_recorded hsource size steps).capacity]
  exact Nat.le_trans (by decide) (Nat.le_max_right size.toNat minCapacity)

/-- Behind a signal code points are delivered as long as there are bytes left. -/
theorem left_next {s : Signal} (hs : ((ofSource source size).after steps).signal = some s) :
    (∃ point, Utf8.decode (left source size steps) = some point ∧
        ((ofSource source size).after steps).next.1 = .ok (some point) ∧
        left source size (steps ++ [.next]) = (left source size steps).drop point.size) ∨
      left source size steps = [] ∧
        ((ofSource source size).after steps).next.1 = s.report none := by
  have hsound := sound_recorded hsource size steps
  have hroomy := roomy_recorded hsource size steps
  have hkept := latched_recorded source size steps
  have hsame := handed_of_signal source size steps hs .next
  rw [← signal_recorded] at hs
  rw [← next_recorded, left_concat, left_recorded, hsame]
  refine (hsound.next_of_signal hroomy hs hkept).imp ?_ id
  rintro ⟨point, hdecode, hanswer, hdelivered⟩
  refine ⟨point, hdecode, hanswer, ?_⟩
  show List.drop (recorded source size steps).next.2.delivered _ = _
  rw [hdelivered, List.drop_drop]

/-- Behind a signal bytes are delivered as long as there are any left. -/
theorem left_readBytes {s : Signal} (hs : ((ofSource source size).after steps).signal = some s)
    {room : Nat} (hroom : 0 < room) :
    (∃ bytes, bytes ≠ [] ∧ (((ofSource source size).after steps).readBytes room).1 = .ok bytes ∧
        left source size steps = bytes ++ left source size (steps ++ [.readBytes room])) ∨
      left source size steps = [] ∧
        (((ofSource source size).after steps).readBytes room).1 = s.report [] := by
  have hsound := sound_recorded hsource size steps
  have hroomy := roomy_recorded hsource size steps
  have hpositive := Nat.lt_of_lt_of_le (show 0 < Utf8.maxLength by decide) hroomy
  have hsame := handed_of_signal source size steps hs (.readBytes room)
  have hstays := (silent_after hs [.readBytes room]).2
  rw [← signal_recorded, recorded_concat] at hstays
  rw [← signal_recorded] at hs
  rw [← readBytes_recorded, left_concat, left_recorded, hsame]
  exact hsound.readBytes_of_signal hpositive hroom hs hstays hsame

/-- Going back leaves all bytes from there on to be delivered again. -/
theorem left_rewind {position : Int}
    (hback : (((ofSource source size).after steps).rewind position).1 = .ok ()) :
    ∃ p : Nat, position = p ∧
      left source size (steps ++ [.rewind position]) = (handedOut source size steps).drop p := by
  rw [← rewind_recorded] at hback
  rw [left_concat, perform]
  rcases (sound_recorded hsource size steps).tracks.rewind position with
    ⟨p, readPos, replay, rfl, -, hok, -⟩ | ⟨failure, herror⟩
  · rw [hok]
    exact ⟨p, rfl, rfl⟩
  · rw [herror] at hback
    exact nomatch hback

end

/-- A step that finds the source over and everything delivered, and is answered so. -/
theorem reports_of_over {source : σ} {size : Int} {steps : List CursorStep} (step : CursorStep)
    {α : Type} {atEnd : α} {answer : Except Failure α}
    (hterminated : ((recorded source size steps).perform step).terminated = true)
    (hdelivered : ((recorded source size steps).perform step).delivered =
      ((recorded source size steps).perform step).source.handed.length)
    (hanswer : answer = ((recorded source size steps).perform step).report atEnd) :
    Reports source size (steps ++ [step]) atEnd answer := by
  obtain ⟨s, hsignal⟩ := exists_signal_iff.mpr hterminated
  refine ⟨?_, s, ?_, hanswer.trans (report_of_signal hsignal atEnd)⟩
  · rw [left_concat, hdelivered, List.drop_length]
  · rw [← signal_recorded, recorded_concat]
    exact hsignal

/-- What a source says last is kept, it comes last, and it stays: this of a run and the cursor after
    it. -/
structure Latches (source : σ) (size : Int) (steps : List CursorStep) (c : Cursor σ) : Prop where
  /-- The signal that is kept is that of the replies, and there was none before the last reply. -/
  heard : Heard (replies source size steps) c.signal
  /-- Giving up takes a hundred replies *not yet* to one refill: any other reply ends a refill. -/
  refill : replies source size (steps ++ [.fill]) = replies source size steps ∨
    (∃ n < maxEmptyReads, ∃ reply ≠ Reply.notYet, replies source size (steps ++ [.fill]) =
      replies source size steps ++ List.replicate n .notYet ++ [reply]) ∨
    replies source size (steps ++ [.fill]) =
      replies source size steps ++ List.replicate maxEmptyReads .notYet
  /-- Behind a signal the source is not read any more, and the signal is not changed. -/
  stays {s : Signal} (hs : c.signal = some s) (more : List CursorStep) :
    replies source size (steps ++ more) = replies source size steps ∧
      ((ofSource source size).after (steps ++ more)).signal = some s
  /-- Behind a signal code points are delivered as long as there are bytes left, then the signal is
      reported. -/
  next_of_signal {s : Signal} (hs : c.signal = some s) :
    (∃ point, Utf8.decode (left source size steps) = some point ∧ c.next.1 = .ok (some point) ∧
        left source size (steps ++ [.next]) = (left source size steps).drop point.size) ∨
      left source size steps = [] ∧ c.next.1 = s.report none
  /-- Behind a signal bytes are delivered as long as there are any left, then the signal is
      reported. -/
  readBytes_of_signal {s : Signal} (hs : c.signal = some s) {room : Nat} (hroom : 0 < room) :
    (∃ bytes, bytes ≠ [] ∧ (c.readBytes room).1 = .ok bytes ∧
        left source size steps = bytes ++ left source size (steps ++ [.readBytes room])) ∨
      left source size steps = [] ∧ (c.readBytes room).1 = s.report []
  /-- Going back leaves all bytes from there on to be delivered again. -/
  left_rewind {position : Int} (hback : (c.rewind position).1 = .ok ()) :
    ∃ p : Nat, position = p ∧
      left source size (steps ++ [.rewind position]) = (handedOut source size steps).drop p
  /-- With or without a signal: a call for a code point delivers one, or the source has reported
      less than nothing, or nothing is left and a signal is reported. -/
  next_reports : (∃ point, c.next.1 = .ok (some point)) ∨
    (∃ k < 0, c.next.1 = .error (.negativeCount k)) ∨
    Reports source size (steps ++ [.next]) none c.next.1
  /-- The same of a call for bytes. -/
  readBytes_reports {room : Nat} (hroom : 0 < room) :
    (∃ bytes, bytes ≠ [] ∧ (c.readBytes room).1 = .ok bytes) ∨
    (∃ k < 0, (c.readBytes room).1 = .error (.negativeCount k)) ∨
    Reports source size (steps ++ [.readBytes room]) [] (c.readBytes room).1

/-- A cursor keeps what its source says last, delivers everything before it, and reports it then,
    each time again: for every honest source and every run. -/
theorem latches {source : σ} (hsource : HonestSource source) (size : Int)
    (steps : List CursorStep) :
    Latches source size steps ((ofSource source size).after steps) where
  heard := heard_after source size steps
  refill := refill_hears source size steps
  stays := silent_after
  next_of_signal := left_next hsource size steps
  readBytes_of_signal := left_readBytes hsource size steps
  left_rewind := left_rewind hsource size steps
  next_reports := by
    have hsound := sound_recorded hsource size steps
    rw [← next_recorded]
    rcases hsound.next_cases (roomy_recorded hsource size steps) with
      hpoint | hnegative | ⟨hterminated, hall, hanswer⟩
    · exact Or.inl hpoint
    · exact Or.inr (Or.inl hnegative)
    · exact Or.inr (Or.inr (reports_of_over .next hterminated hall hanswer))
  readBytes_reports {room} hroom := by
    have hsound := sound_recorded hsource size steps
    have hroomy := roomy_recorded hsource size steps
    have hpositive := Nat.lt_of_lt_of_le (show 0 < Utf8.maxLength by decide) hroomy
    rw [← readBytes_recorded]
    rcases hsound.readBytes_cases hpositive hroom with
      ⟨bytes, hbytes, hanswer, -⟩ | ⟨-, hnegative⟩ | ⟨hterminated, hstill, hall, hanswer⟩
    · exact Or.inl ⟨bytes, hbytes, hanswer⟩
    · exact Or.inr (Or.inl hnegative)
    · exact Or.inr (Or.inr
        (reports_of_over (.readBytes room) hterminated (hstill.trans hall) hanswer))

/-- The source fails behind an unfinished sequence, and the cursor has gone back to the start. -/
theorem latches_waits :
    HonestSource waitsThenFails ∧
      Latches waitsThenFails 16 refusedRun ((ofSource waitsThenFails 16).after refusedRun) ∧
      ((ofSource waitsThenFails 16).after refusedRun).signal =
        some (.failed (.sourceRead .streamClosed)) ∧
      left waitsThenFails 16 refusedRun = List.replicate 14 0x41 ++ [0xF0, 0x9F, 0x42, 0x43] :=
  have honest : HonestSource waitsThenFails := Script.honestSource (by decide)
  ⟨honest, latches honest 16 refusedRun, by decide +kernel, by decide +kernel⟩

end Cursor

end StreamScan

import StreamScan.Proofs.Cursor.Latching
import StreamScan.Proofs.Cursor.Lookback

/-!
# Copying out of the window is exact or refused

Without positional reads a match is copied out of the window.  Its bytes may lie in `current`, in
`previous` or across both, and what lies in front of the first byte of the stream is the filling of
a new window.  A match that begins in the window is copied as it was handed out, and the cursor goes
on right behind it, whichever of its blocks that is in and whatever it was delivering again.  Any
other match is refused, and nothing changes.

What *goes on* means is said of whoever reads on: the bytes handed out behind the match come first,
in their order, and none of them is left out.  No source can prevent that, since all of them have
been pulled.

* **`Brings`** — the bytes that come next.
* **`Tracks.brings`** — what was pulled and not delivered comes next.
* **`Sound.next_decodes`** — a code point is decoded from the bytes that come next.
* **`extract_exact_or_refused`** — copying out, for every honest source and every run.
-/

namespace StreamScan

namespace Cursor

/-! ## What comes next -/

section
variable {σ : Type} [ByteSource σ] {c : Cursor σ} {pulled : Bytes}

/-- What a reader gets that calls for bytes again and again, with so much room each time.  A call
    that fails brings nothing. -/
def reads (c : Cursor σ) : List Nat → Bytes
  | [] => []
  | room :: rooms =>
    match c.readBytes room with
    | (.ok bytes, c) => bytes ++ c.reads rooms
    | (.error _, c) => c.reads rooms

/-- The bytes that come next: a reader gets these before any other, in their order, and all of them
    if it goes on for long enough. -/
structure Brings (c : Cursor σ) (bytes : Bytes) : Prop where
  inOrder (rooms : List Nat) : c.reads rooms <+: bytes ∨ bytes <+: c.reads rooms
  all {rooms : List Nat} (hrooms : ∀ room ∈ rooms, 0 < room)
    (hlong : bytes.length ≤ rooms.length) : bytes <+: c.reads rooms

/-- As long as there are bytes that were pulled and not delivered, the next ones are delivered, and
    the source is not asked. -/
theorem Tracks.readBytes_of_lt (h : c.Tracks pulled) (hleft : c.delivered < pulled.length)
    {room : Nat} (hroom : 0 < room) :
    ∃ bytes c', c.readBytes room = (.ok bytes, c') ∧ bytes ≠ [] ∧
      pulled.drop c.delivered = bytes ++ pulled.drop c'.delivered ∧ c'.Tracks pulled := by
  have hsplit {bytes : Bytes} (hfront : bytes <+: pulled.drop c.delivered) :
      pulled.drop c.delivered = bytes ++ pulled.drop (c.delivered + bytes.length) := by
    obtain ⟨rest, hrest⟩ := hfront
    rw [← List.drop_drop, ← hrest, List.drop_left]
  rw [Cursor.readBytes, if_neg (Nat.ne_of_gt hroom)]
  by_cases hreplay : c.replay = []
  · -- the bytes stand in `current`
    have hlayout := h.2
    have hread := hlayout.read_le
    have hwrite := hlayout.write_le_pulled
    rw [hreplay] at hlayout
    have hunread : c.readPos < c.writePos := by
      rw [hlayout.delivered_eq] at hleft
      omega
    have hbyte : c.ensureByte = (.ok (), c) := by
      rw [Cursor.ensureByte, decide_eq_false (Nat.ne_of_lt hunread), Bool.false_and,
        if_neg Bool.false_ne_true]
    obtain ⟨hsome, hfront, hlength⟩ := h.take_current hreplay
      (show c.readPos < min (c.readPos + room) c.writePos by omega) (Nat.min_le_right _ _)
    have hadvanced := h.advance_to hreplay
      (show c.readPos ≤ min (c.readPos + room) c.writePos by omega) (Nat.min_le_right _ _)
    have hnext := hsplit hfront
    rw [hlength] at hnext
    rw [hreplay, List.isEmpty_nil, Bool.not_true, if_neg Bool.false_ne_true, hbyte]
    simp only [if_neg (Nat.ne_of_lt hunread)]
    exact ⟨_, _, rfl, hsome, hnext, hadvanced⟩
  · -- they wait in the replay
    have hwaits : (!c.replay.isEmpty) = true := by
      rw [Bool.not_eq_true', List.isEmpty_eq_false_iff]
      exact hreplay
    have hsome : c.replay.take room ≠ [] := by
      intro hnil
      rcases List.take_eq_nil_iff.mp hnil with hzero | hnone
      · omega
      · exact hreplay hnone
    rw [if_pos hwaits]
    exact ⟨_, _, rfl, hsome, hsplit ((List.take_prefix _ _).trans h.2.again), h.1,
      h.2.replayed_take room⟩

/-- What was pulled and not delivered comes next. -/
theorem Tracks.brings (h : c.Tracks pulled) : c.Brings (pulled.drop c.delivered) where
  inOrder rooms := by
    induction rooms generalizing c with
    | nil => exact Or.inl List.nil_prefix
    | cons room rooms ih =>
      by_cases hleft : c.delivered < pulled.length
      · by_cases hroom : room = 0
        · have hnothing : c.readBytes room = (.ok [], c) := by
            rw [Cursor.readBytes, if_pos hroom]
          rw [reads, hnothing]
          exact ih h
        · obtain ⟨bytes, c', hread, -, hnext, htracks⟩ :=
            h.readBytes_of_lt hleft (Nat.pos_of_ne_zero hroom)
          rw [reads, hread, hnext, List.prefix_append_right_inj, List.prefix_append_right_inj]
          exact ih htracks
      · rw [List.drop_eq_nil_of_le (Nat.le_of_not_lt hleft)]
        exact Or.inr List.nil_prefix
  all {rooms} hrooms hlong := by
    induction rooms generalizing c with
    | nil =>
      rw [List.eq_nil_of_length_eq_zero (Nat.le_zero.mp hlong)]
      exact List.nil_prefix
    | cons room rooms ih =>
      obtain ⟨hroom, hrooms⟩ := List.forall_mem_cons.mp hrooms
      by_cases hleft : c.delivered < pulled.length
      · obtain ⟨bytes, c', hread, hsome, hnext, htracks⟩ := h.readBytes_of_lt hleft hroom
        -- a call brings one byte at least, so one call less is enough for the rest
        have hpositive := List.length_pos_iff.mpr hsome
        rw [hnext, List.length_append, List.length_cons] at hlong
        rw [reads, hread, hnext, List.prefix_append_right_inj]
        exact ih htracks hrooms (by omega)
      · rw [List.drop_eq_nil_of_le (Nat.le_of_not_lt hleft)]
        exact List.nil_prefix

end

/-! ## Code points -/

section
variable {σ : Type} [ByteSource σ] {capacity : Nat} {c c' : Cursor (Recorded σ)}
  {point : Codepoint}

/-- Without a replay a code point is decoded from the bytes at the read position. -/
theorem Sound.nextCurrent_decodes (h : Sound capacity c) (hreplay : c.replay = [])
    (hnext : c.nextCurrent = (.ok (some point), c')) :
    ∃ front, front <+: c'.source.handed.drop c.delivered ∧ Utf8.decode front = some point ∧
      c'.delivered = c.delivered + point.size := by
  have hahead := h.lookahead Utf8.maxLength
  have hsame := samePlace_lookahead Utf8.maxLength c
  rw [Cursor.nextCurrent, ensureLookahead] at hnext
  rcases hcase : c.lookahead Utf8.maxLength with ⟨_ | _, c₁⟩
  · rw [hcase] at hnext
    have hanswer := (Prod.ext_iff.mp hnext).1
    cases hanswer
  · rw [hcase] at hahead hsame hnext
    simp only at hahead hsame hnext
    have hlayout := hahead.tracks.2
    have hplace := hahead.tracks.currentStart_eq
    have hpeek := hahead.tracks.peek_eq
    rw [hsame.replay, hreplay] at hlayout
    rw [hplace, ← hlayout.delivered_eq, hsame.delivered] at hpeek
    cases hdecode : Utf8.decode c₁.peek with
    | none =>
      simp only [hdecode, report] at hnext
      cases hlatched : c₁.latched with
      | none =>
        rw [hlatched] at hnext
        have hanswer := Except.ok.inj (Prod.ext_iff.mp hnext).1
        cases hanswer
      | some failure =>
        rw [hlatched] at hnext
        have hanswer := (Prod.ext_iff.mp hnext).1
        cases hanswer
    | some found =>
      simp only [hdecode] at hnext
      obtain ⟨hpoint, rfl⟩ := Prod.ext_iff.mp hnext
      obtain rfl := Option.some.inj (Except.ok.inj hpoint)
      refine ⟨c₁.peek, ?_, hdecode, ?_⟩
      · rw [hpeek]
        exact List.take_prefix _ _
      · show c₁.delivered + found.size = c.delivered + found.size
        rw [hsame.delivered]

omit [ByteSource σ] in
/-- A code point that is decoded from a front of the bytes that come next. -/
theorem deliverFromReplay_decodes {delivered : Nat} {head : Bytes}
    (hdelivered : c.delivered = delivered) (hhead : head <+: c.source.handed.drop delivered)
    (hnext : c.deliverFromReplay head = (.ok (some point), c')) :
    ∃ front, front <+: c'.source.handed.drop delivered ∧ Utf8.decode front = some point ∧
      c'.delivered = delivered + point.size := by
  rw [Cursor.deliverFromReplay] at hnext
  cases hdecode : Utf8.decode head with
  | none =>
    simp only [hdecode] at hnext
    have hanswer := Except.ok.inj (Prod.ext_iff.mp hnext).1
    cases hanswer
  | some found =>
    simp only [hdecode] at hnext
    obtain ⟨hpoint, rfl⟩ := Prod.ext_iff.mp hnext
    obtain rfl := Option.some.inj (Except.ok.inj hpoint)
    refine ⟨head, hhead, hdecode, ?_⟩
    show c.delivered + found.size = delivered + found.size
    rw [hdelivered]

/-- A code point that begins in the replay is decoded from it and from the bytes behind it. -/
theorem Sound.nextReplayed_decodes (h : Sound capacity c) (hreplay : c.replay ≠ [])
    (hnext : c.nextReplayed = (.ok (some point), c')) :
    ∃ front, front <+: c'.source.handed.drop c.delivered ∧ Utf8.decode front = some point ∧
      c'.delivered = c.delivered + point.size := by
  rw [Cursor.nextReplayed, ensureLookahead] at hnext
  by_cases hsettled : Utf8.settled (c.replay.take Utf8.maxLength) = true
  · rw [if_pos hsettled] at hnext
    exact deliverFromReplay_decodes rfl ((List.take_prefix _ _).trans h.tracks.2.again) hnext
  · rw [if_neg hsettled] at hnext
    -- a replay that does not decide is shorter than four bytes, so all of it is looked at
    have hshort : c.replay.length ≤ Utf8.maxLength := by
      refine Nat.le_of_not_lt fun hlong => hsettled (Utf8.settled_of_length ?_)
      rw [List.length_take]
      omega
    rw [List.take_of_length_le hshort] at hnext
    have hahead := h.lookahead Utf8.maxLength
    have hsame := samePlace_lookahead Utf8.maxLength c
    rcases hcase : c.lookahead Utf8.maxLength with ⟨_ | _, c₁⟩
    · rw [hcase] at hnext
      have hanswer := (Prod.ext_iff.mp hnext).1
      cases hanswer
    · rw [hcase] at hahead hsame hnext
      simp only at hahead hsame hnext
      have hhead := hahead.tracks.replay_peek (by rwa [hsame.replay])
      rw [hsame.replay, hsame.delivered] at hhead
      exact deliverFromReplay_decodes hsame.delivered hhead hnext

/-- A code point is decoded from the bytes that come next, of those that have been handed out when
    it is delivered. -/
theorem Sound.next_decodes (h : Sound capacity c) (hnext : c.next = (.ok (some point), c')) :
    ∃ front, front <+: c'.source.handed.drop c.delivered ∧ Utf8.decode front = some point ∧
      c'.delivered = c.delivered + point.size := by
  rw [Cursor.next] at hnext
  by_cases hreplay : c.replay = []
  · rw [if_pos (List.isEmpty_iff.mpr hreplay)] at hnext
    exact h.nextCurrent_decodes hreplay hnext
  · rw [if_neg fun hempty => hreplay (List.isEmpty_iff.mp hempty)] at hnext
    exact h.nextReplayed_decodes hreplay hnext

end

/-! ## Runs -/

section
variable {σ : Type} [ByteSource σ] {source : σ}

/-- After every run a cursor keeps what its source has handed out in the layout. -/
theorem tracks_after (hsource : HonestSource source) (size : Int) (steps : List CursorStep) :
    ((ofSource source size).after steps).Tracks (handedOut source size steps) := by
  have htracks := (sound_recorded hsource size steps).tracks
  rw [← forget_recorded]
  exact ⟨htracks.1, htracks.2⟩

/-- After every run a code point is decoded from the bytes that come next. -/
theorem next_decodes (hsource : HonestSource source) (size : Int) (steps : List CursorStep)
    {point : Codepoint} {c' : Cursor σ}
    (hnext : ((ofSource source size).after steps).next = (.ok (some point), c')) :
    ∃ front, front <+: (handedOut source size (steps ++ [.next])).drop
        ((ofSource source size).after steps).delivered ∧
      Utf8.decode front = some point ∧
      c'.delivered = ((ofSource source size).after steps).delivered + point.size := by
  have hsound := sound_recorded hsource size steps
  have hmap := map_next Recorded.sourceMap_source (recorded source size steps)
  have hforget : (recorded source size steps).mapSource Recorded.source =
      (ofSource source size).after steps := forget_recorded source size steps
  rw [hforget, hnext] at hmap
  obtain ⟨hanswer, hafter⟩ := Prod.ext_iff.mp hmap
  obtain ⟨front, hfront, hdecode, hdelivered⟩ := hsound.next_decodes (Prod.ext hanswer rfl)
  refine ⟨front, ?_, hdecode, ?_⟩
  · rw [← hforget, handedOut, after_append]
    exact hfront
  · rw [← hforget]
    exact (congrArg Cursor.delivered hafter).symm.trans hdelivered

/-- A match was copied out as it was handed out, and the cursor goes on right behind it. -/
structure Copies (source : σ) (size : Int) (steps : List CursorStep)
    (start length offset stop : Nat) (c c' : Cursor σ) : Prop where
  answer : c.extract start length =
    (.ok ⟨offset, ((handedOut source size steps).drop offset).take length⟩, c')
  delivered : c'.delivered = stop
  lastMatchEnd : c'.lastMatchEnd = stop
  /-- The bytes behind the match come next. -/
  brings : c'.Brings ((handedOut source size steps).drop stop)
  /-- The next code point is decoded from these, and from others if it takes more of them. -/
  codepoint {point : Codepoint} {c'' : Cursor σ} (hnext : c'.next = (.ok (some point), c'')) :
    ∃ front more, handedOut source size (steps ++ [.extract start length, .next]) =
        handedOut source size steps ++ more ∧
      front <+: (handedOut source size steps ++ more).drop stop ∧
      Utf8.decode front = some point ∧ c''.delivered = stop + point.size

/-- Without positional reads, copying out a match that was delivered is exact if it begins in the
    window, and otherwise it is refused and changes nothing. -/
theorem extract_exact_or_refused (hsource : HonestSource source) (size : Int)
    (steps : List CursorStep) {c : Cursor σ} (hc : (ofSource source size).after steps = c)
    (hsequential : ByteSource.readAt? c.source = none) {start length offset stop : Nat}
    (hoffset : c.lastMatchEnd + start = offset) (hlength : offset + length = stop)
    (hread : stop ≤ c.delivered) :
    (max ((c.sourceTotal : Int) - c.writePos - c.capacity) 0 ≤ offset →
        ∃ c', Copies source size steps start length offset stop c c') ∧
      (offset < max ((c.sourceTotal : Int) - c.writePos - c.capacity) 0 →
        ∃ failure, failure.kind = .outOfWindow ∧
          c.extract start length = (.error failure, c)) := by
  have htracks := tracks_after hsource size steps
  rw [hc] at htracks
  have htotal := htracks.1
  constructor
  · intro hlower
    obtain ⟨readPos, replay, hextract, hlayout⟩ :=
      htracks.extract_ok hsequential hoffset hlength hread (by omega)
    refine ⟨_, hextract, rfl, rfl, Tracks.brings ⟨htotal, hlayout⟩, fun {point c''} hnext => ?_⟩
    -- the cursor behind the match is that of the run with one step more
    have hrun : (ofSource source size).after (steps ++ [.extract start length]) =
        (c.extract start length).2 := by
      rw [after_append, hc]
      rfl
    rw [hextract] at hrun
    simp only at hrun
    rw [← hrun] at hnext
    obtain ⟨front, hfront, hdecode, hdelivered⟩ := next_decodes hsource size _ hnext
    rw [hrun] at hfront hdelivered
    rw [List.append_assoc] at hfront
    obtain ⟨more, hmore⟩ := handedOut_prefix source size steps [.extract start length, .next]
    rw [List.singleton_append, ← hmore] at hfront
    exact ⟨front, more, hmore.symm, hfront, hdecode, hdelivered⟩
  · intro hlower
    exact ⟨_, rfl, htracks.extract_lost hsequential hoffset hlength hread (by omega)⟩

end

/-- After this run `current` begins at offset 25 and the window at offset 9. -/
def acrossRun : List CursorStep :=
  [.readBytes 9, .extract 2 3, .readBytes 20, .readBytes 20, .next, .readBytes 20, .rewind 26,
    .next]

/-- A match that lies in both blocks is copied, and one that begins before the window is refused. -/
theorem extract_exact_or_refused_forty :
    HonestSource fortyBytes ∧
      (∃ c', Copies fortyBytes 16 acrossRun 17 4 22 26
        ((ofSource fortyBytes 16).after acrossRun) c') ∧
      ((handedOut fortyBytes 16 acrossRun).drop 22).take 4 = [0x41, 0x41, 0x41, 0x42] ∧
      ∃ failure, failure.kind = .outOfWindow ∧
        ((ofSource fortyBytes 16).after acrossRun).extract 3 4 =
          (.error failure, (ofSource fortyBytes 16).after acrossRun) := by
  have honest : HonestSource fortyBytes := Script.honestSource (by decide)
  have hmark : ((ofSource fortyBytes 16).after acrossRun).lastMatchEnd = 5 := by decide +kernel
  have hread : ((ofSource fortyBytes 16).after acrossRun).delivered = 27 := by decide +kernel
  have htotal : ((ofSource fortyBytes 16).after acrossRun).sourceTotal = 40 := by decide +kernel
  have hwrite : ((ofSource fortyBytes 16).after acrossRun).writePos = 15 := by decide +kernel
  have hcapacity : ((ofSource fortyBytes 16).after acrossRun).capacity = 16 := by decide +kernel
  have hheld : ((ofSource fortyBytes 16).after acrossRun).lastMatchEnd + 17 = 22 := by rw [hmark]
  have hlost : ((ofSource fortyBytes 16).after acrossRun).lastMatchEnd + 3 = 8 := by rw [hmark]
  have hexact := (extract_exact_or_refused honest 16 acrossRun rfl rfl hheld
    (show 22 + 4 = 26 from rfl) (by omega)).1
  have hrefused := (extract_exact_or_refused honest 16 acrossRun rfl rfl hlost
    (show 8 + 4 = 12 from rfl) (by omega)).2
  exact ⟨honest, hexact (by omega), by decide +kernel, hrefused (by omega)⟩

end Cursor

end StreamScan

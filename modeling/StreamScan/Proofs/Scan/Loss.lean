import StreamScan.Proofs.Cursor.Bytewise
import StreamScan.Proofs.Scan.Exactness

/-!
# Matches that are lost

When a stream arrives byte by byte, a late match is lost: `current` has moved up to the mark of the
search, so the start of the match is not held any more.  A match that fills the window to its last
byte is late if the engine takes longer steps.  Such a match is found when the same stream arrives
at once, and in the whole text.

* **`lost_of_late`** — a first match that is late is lost.
* **`lost_of_full`** — a match at the start that fills a window of 128 bytes or more is lost.
-/

namespace StreamScan

/-! ## Searching through a drained cursor -/

section
variable {σ : Type} [FiniteSource σ] {R : σ → Nat → Bytes → Prop} {positional : Bool}
  {stream : Bytes}

/-- The cursor that a number of calls leads to, with a `current` that begins where the last call
    began. -/
structure Trails (R : σ → Nat → Bytes → Prop) (stream : Bytes) (c : Cursor σ) (calls : Nat)
    (c' : Cursor σ) : Prop where
  reached : c.Reached R stream calls c'
  start_eq : 0 < calls → c'.currentStart =
    c.delivered + width ((Utf8.codepoints (stream.drop c.delivered)).take (calls - 1))

/-- One call more, and before the end of the stream the cursor is still drained. -/
theorem Trails.next (haccount : Account positional stream R) (hbytewise : Bytewise R)
    (hascii : ∀ b ∈ stream, b < 0x80) {c c' : Cursor σ} {n : Nat} (h : Trails R stream c n c')
    (hdrained : c'.Drained R stream) :
    ∃ c'', c'.next = (.ok (Utf8.codepoints (stream.drop c.delivered))[n]?, c'') ∧
      Trails R stream c (n + 1) c'' ∧
      ((Utf8.codepoints (stream.drop c.delivered))[n]?.isSome → c''.Drained R stream) := by
  obtain ⟨c'', hnext, hreached⟩ := h.reached.next haccount
  obtain ⟨hstart, hmore⟩ := hdrained.next haccount hbytewise hascii (congrArg Prod.snd hnext)
  refine ⟨c'', hnext, ⟨hreached, fun _ => hstart.trans h.reached.delivered⟩, fun hsome => ?_⟩
  refine hmore (Nat.lt_of_not_le fun hend => ?_)
  rw [Utf8.getElem?_codepoints, List.drop_drop, ← h.reached.delivered,
    List.drop_eq_nil_of_le hend] at hsome
  exact nomatch hsome

/-- Calls through a drained cursor, one after the other. -/
theorem alike_of_drained (haccount : Account positional stream R) (hbytewise : Bytewise R)
    (hascii : ∀ b ∈ stream, b < 0x80) (c : Cursor σ) :
    AnswerAlike
      (fun t c' => ∃ n, t = Tape.after (Utf8.codepoints (stream.drop c.delivered)) n ∧
        Trails R stream c n c' ∧ c'.Drained R stream)
      (fun t c' => ∃ n, t = Tape.after (Utf8.codepoints (stream.drop c.delivered)) n ∧
        Trails R stream c n c') where
  answer {t c'} h := by
    obtain ⟨n, rfl, htrails, hdrained⟩ := h
    obtain ⟨c'', hnext, -⟩ := htrails.next haccount hbytewise hascii hdrained
    rw [Tape.next_after]
    exact (congrArg Prod.fst hnext).symm
  going {t c' point} h hsome := by
    obtain ⟨n, rfl, htrails, hdrained⟩ := h
    obtain ⟨c'', hnext, htrails', hmore⟩ := htrails.next haccount hbytewise hascii hdrained
    rw [Tape.next_after] at hsome ⊢
    rw [show CodepointReader.next c' = _ from hnext]
    exact ⟨n + 1, rfl, htrails', hmore (by rw [Except.ok.inj hsome]; rfl)⟩
  last {t c'} h := by
    obtain ⟨n, rfl, htrails, hdrained⟩ := h
    obtain ⟨c'', hnext, htrails', -⟩ := htrails.next haccount hbytewise hascii hdrained
    rw [Tape.next_after, show CodepointReader.next c' = _ from hnext]
    exact ⟨n + 1, rfl, htrails'⟩
  enough {t c'} h := by
    obtain ⟨n, htape, htrails, -⟩ := h
    exact ⟨n, htape, htrails⟩

/-- When a search through a drained cursor has found something, `current` begins at its mark. -/
theorem start_of_finds (haccount : Account positional stream R) (hbytewise : Bytewise R)
    (hascii : ∀ b ∈ stream, b < 0x80) {e : Engine} (hm : e.matcher.Searches) {c : Cursor σ}
    (h : c.Drained R stream) {f : Finding} (hf : Finds e stream c.delivered f) :
    (e.findNext c).2.currentStart = f.mark := by
  obtain ⟨location, calls, hfind, rfl⟩ := hf
  obtain ⟨calls', hturns, htape⟩ := Engine.turns_findNext hm
    (Utf8.codepoints (stream.drop c.delivered))
  have hpositive := (hturns.bounds hm (Nat.le_refl 0) (Nat.zero_le _)).1
  obtain ⟨-, n, hn, htrails⟩ := Engine.findFrom_alike (e := e) (x := .empty)
    (alike_of_drained haccount hbytewise hascii c)
    ⟨0, rfl, ⟨.refl h.follows, fun hlt => absurd hlt (Nat.lt_irrefl 0)⟩, h⟩
  -- the tape tells how many calls there were, and that there was one
  rw [tapeFrom] at hfind
  rw [hfind] at htape
  rw [Engine.findNext] at hfind
  rw [hfind] at hn
  have hcalls : calls = n := congrArg Tape.calls hn
  have hcalls' : calls = calls' := congrArg Tape.calls htape
  rw [hcalls]
  exact htrails.start_eq (by omega)

end

/-! ## Losing a match -/

namespace Scan

/-- When a stream arrives byte by byte, a first match that is late is lost. -/
theorem lost_of_late {m : Matcher} (hm : m.Searches) (size : Int) {stream : Bytes}
    (hascii : ∀ b ∈ stream, b < 0x80) {f : Finding}
    (hf : Finds (engineOf m size) stream 0 f) (hlate : f.Late false (windowSize size)) :
    ∃ failure, (ofMatcher m (Buffer.ofPayload stream (some 1) false) size).outcome =
        ([], .failed failure) ∧ failure.kind = .outOfWindow := by
  have haccount := Buffer.account_sips stream
  have hserves := Buffer.sips_ofPayload stream
  have hready := ready_ofSource hserves size
  obtain ⟨location, c₁, hsearch, hfound⟩ := find_finds haccount hm.confined hready hf
  have hstart := start_of_finds haccount (Buffer.bytewise_sips stream) hascii hm
    (Cursor.drained_ofSource hserves size) hf
  rw [hsearch] at hstart
  obtain ⟨hfrom, hspan⟩ := hf.bounds hm.confined
  have hbegin := hfound.start_eq
  have hend := hfound.stop_eq
  have hlost : Cursor.Follows.needed false f.start f.stop + c₁.capacity < c₁.currentStart := by
    rw [hfound.capacity_eq, hstart]
    exact hlate
  have hoffset : c₁.lastMatchEnd + location.start = f.start := by
    rw [hfound.lastMatchEnd, hbegin]
  have hlength : f.start + (location.stop - location.start) = f.stop := by omega
  obtain ⟨c₂, hextract⟩ :=
    hfound.follows.extract_lost haccount hoffset hlength hfound.read hlost
  have hadvance := advance_some hsearch (by omega) hextract
  have hpass : (ofMatcher m (Buffer.ofPayload stream (some 1) false) size).pass
      collectMatches [] = (.failed _, [], ⟨engineOf m size, c₂⟩) := run_error hadvance []
  rw [outcome, hpass]
  exact ⟨_, rfl, rfl⟩

/-- When a stream of ASCII arrives byte by byte, a match at its start that fills a window of 128
    bytes or more to the last byte is lost, if more text follows. -/
theorem lost_of_full {m : Matcher} (hm : m.Lawful 0) (size : Int) (hsize : 128 ≤ windowSize size)
    {stream : Bytes} (hascii : ∀ b ∈ stream, b < 0x80)
    (hdecides : m.Decides (Utf8.codepoints stream) (windowSize size)) {k : Nat}
    (hfirst : m.Leftmost (letters (Utf8.codepoints stream)) 0 ⟨0, k⟩)
    (hfull : width ((Utf8.codepoints stream).take k) = windowSize size)
    (hmore : k < (Utf8.codepoints stream).length) :
    ∃ failure, (ofMatcher m (Buffer.ofPayload stream (some 1) false) size).outcome =
        ([], .failed failure) ∧ failure.kind = .outOfWindow := by
  have hsizes := Utf8.sizes_of_codepoints (b := stream) rfl
  have hwindow : (engineOf m size).window = windowSize size := window_engineOf m size
  have hstep : 1 < (engineOf m size).step := by
    rw [Engine.step, hwindow]
    omega
  rw [← hwindow] at hdecides
  have hwidth : width ((Utf8.codepoints stream).take k) -
      width ((Utf8.codepoints stream).take 0) = (engineOf m size).window := by
    rw [hfull, hwindow]
    rfl
  have hspan : ∀ s, (engineOf m size).matcher.Leftmost (letters (Utf8.codepoints stream)) 0 s →
      width ((Utf8.codepoints stream).take s.stop) -
        width ((Utf8.codepoints stream).take s.start) ≤ (engineOf m size).window := by
    intro s hs
    rw [hs.unique hfirst]
    exact Nat.le_of_eq hwidth
  obtain ⟨calls, hfind, hseek, -⟩ := Engine.findNext_timely (e := engineOf m size) hm
    (minCapacity_le_window m size) hsizes hspan hdecides
  have hbehind := hseek.behind (hm.mono (Nat.zero_le Excerpt.context)) hsizes hstep hfirst hwidth
    hmore (Nat.le_refl 0) (Nat.zero_le k)
  have hsearch : (engineOf m size).matcher.search (letters (Utf8.codepoints stream)) 0 =
      some ⟨0, k⟩ := hm.search_eq_some hfirst
  rw [hsearch] at hfind
  have hfinds : Finds (engineOf m size) stream 0 _ :=
    ⟨Span.inBytes (Utf8.codepoints stream) ⟨0, k⟩, calls, hfind, rfl⟩
  -- the search has read beyond the window, so the mark lies behind it
  refine lost_of_late hm.toSearches size hascii hfinds ?_
  have hone := width_take_lt (fun c hc => (hsizes c hc).1) (Nat.lt_add_one k) hmore
  have hmark := width_take_le (w := Utf8.codepoints stream) (Nat.le_sub_one_of_lt hbehind)
  show 0 + width ((Utf8.codepoints stream).take 0) + windowSize size <
    0 + width ((Utf8.codepoints stream).take (calls - 1))
  rw [List.take_zero, width_nil, ← hfull]
  omega

/-- A word of 128 letters and a window of 128 bytes.  The word stands at the start of the stream and
    fits into the window; when the stream arrives byte by byte, it is lost. -/
theorem outcome_inexact :
    WellBehaved false (List.replicate 128 97 ++ List.replicate 10 98)
      (Buffer.ofPayload (List.replicate 128 97 ++ List.replicate 10 98) (some 1) false) ∧
    (Matcher.literal (List.replicate 128 'a')).Lawful 0 ∧
    (Matcher.literal (List.replicate 128 'a')).Decides
      (Utf8.codepoints (List.replicate 128 97 ++ List.replicate 10 98)) 128 ∧
    (∀ s ∈ (Matcher.literal (List.replicate 128 'a')).scan
        (letters (Utf8.codepoints (List.replicate 128 97 ++ List.replicate 10 98))) 0,
      (s.inBytes (Utf8.codepoints (List.replicate 128 97 ++ List.replicate 10 98))).stop -
        (s.inBytes (Utf8.codepoints (List.replicate 128 97 ++ List.replicate 10 98))).start ≤
          128) ∧
    ∃ failure, failure.kind = .outOfWindow ∧
      (ofMatcher (.literal (List.replicate 128 'a'))
        (Buffer.ofPayload (List.replicate 128 97 ++ List.replicate 10 98) (some 1) false)
        128).outcome = ([], .failed failure) := by
  have hascii : ∀ b ∈ List.replicate 128 (97 : UInt8) ++ List.replicate 10 98, b < 0x80 := by
    decide +kernel
  have hsizes : ∀ c ∈ Utf8.codepoints (List.replicate 128 97 ++ List.replicate 10 98),
      c.size = 1 := fun c => Utf8.size_of_ascii hascii
  have hdecides : (Matcher.literal (List.replicate 128 'a')).Decides
      (Utf8.codepoints (List.replicate 128 97 ++ List.replicate 10 98)) 128 :=
    Matcher.decides_literal hsizes (Nat.le_of_eq List.length_replicate)
  have hlength : (Utf8.codepoints (List.replicate 128 97 ++ List.replicate 10 98)).length =
      138 := by
    rw [← width_eq_length hsizes, Utf8.width_codepoints, List.length_append,
      List.length_replicate, List.length_replicate]
  have hfull : width ((Utf8.codepoints (List.replicate 128 97 ++ List.replicate 10 98)).take
      128) = windowSize 128 := by
    rw [width_take_eq hsizes (by rw [hlength]; decide)]
    rfl
  have hfirst : (Matcher.literal (List.replicate 128 'a')).Leftmost
      (letters (Utf8.codepoints (List.replicate 128 97 ++ List.replicate 10 98))) 0 ⟨0, 128⟩ :=
    ⟨Nat.le_refl 0, Nat.zero_le _,
      Matcher.literal_attempt_eq_matched.mpr ⟨by decide +kernel, by rw [List.length_replicate]⟩,
      fun place _ hlt => absurd hlt (Nat.not_lt_zero place)⟩
  obtain ⟨failure, houtcome, hkind⟩ := lost_of_full (Matcher.lawful_literal _) 128 (by decide)
    hascii hdecides hfirst hfull (by rw [hlength]; decide)
  refine ⟨Buffer.wellBehaved (by rintro _ ⟨⟩; decide) false _, Matcher.lawful_literal _, hdecides,
    fun s hs => ?_, failure, hkind, houtcome⟩
  rw [width_literal hsizes hs]
  exact Nat.le_of_eq List.length_replicate

end Scan

end StreamScan

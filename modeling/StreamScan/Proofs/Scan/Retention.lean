import StreamScan.Proofs.Scan.Stalling

/-!
# Young places stay in the window

As long as the oldest open place of a search is younger than a window, a turn reads so few code
points that the place does not leave the bytes that the cursor holds.  Room is counted in code
points of four bytes, but a turn reads one at least: so a place may be three bytes older than a
window when the turn is over.  The window still holds it, since `current` begins no later than the
last code point that the turn has read, or the end of the stream if the turn has come to it.

So this is a matter of one turn, whatever the search did before.  A match that is found in such a
turn can be copied, and if the turn has not come to the end, it was answered as soon as a window of
text lay behind it.  Where searches go wrong, the oldest place had been open for a window before the
last turn (`Scan.extract_or_stalled`).

* **`Cursor.reached_of_handed`** — what a cursor hands out is the text behind its position.
* **`Pulled.reached`** — what reading on through a cursor brings, and where it leaves the cursor.
* **`Turned`** — where a turn with a young place leaves a search, said of the text.
* **`Engine.Retained`**, **`Scan.young_retained`** — what follows, in any scan.
-/

namespace StreamScan

/-! ## Reading on through a cursor -/

section
variable {σ : Type} [FiniteSource σ] {R : σ → Nat → Bytes → Prop} {positional : Bool}
  {stream : Bytes} {c₀ c : Cursor σ} {v : List Codepoint}

/-- What a cursor has handed out is the front of the text that follows its position. -/
theorem Cursor.reached_of_handed (haccount : Account positional stream R)
    (h₀ : c₀.Follows R stream) (h : Handed c₀ v c) :
    v = (Utf8.codepoints (stream.drop c₀.delivered)).take v.length ∧
      v.length ≤ (Utf8.codepoints (stream.drop c₀.delivered)).length ∧
      c₀.Reached R stream v.length c := by
  induction h with
  | start => exact ⟨rfl, Nat.zero_le _, .refl h₀⟩
  | @next v c c' point _ hnext ih =>
    obtain ⟨htake, hlength, hreached⟩ := ih
    obtain ⟨c'', hnext', hreached'⟩ := hreached.next haccount
    obtain ⟨hpoint, rfl⟩ := Prod.mk.inj (hnext.symm.trans hnext')
    obtain ⟨hlt, rfl⟩ := List.getElem?_eq_some_iff.mp (Except.ok.inj hpoint).symm
    have hlonger : (v ++ [(Utf8.codepoints (stream.drop c₀.delivered))[v.length]]).length =
        v.length + 1 := List.length_append
    rw [hlonger]
    refine ⟨?_, hlt, hreached'⟩
    rw [List.take_succ_eq_append_getElem hlt, ← htake]

/-- Reading on brings so many code points more of the text, or the rest of it: at the end the cursor
    is called once more than there are code points. -/
theorem Pulled.reached (haccount : Account positional stream R) (h₀ : c₀.Follows R stream)
    {cut keep count : Nat} {answer : Except Failure Bool} {x : Excerpt}
    (h : Pulled c₀ v cut keep count answer x c) :
    ∃ ended n calls, answer = .ok ended ∧
      x = .of ((Utf8.codepoints (stream.drop c₀.delivered)).take n) cut keep ∧
      v.length ≤ n ∧ n ≤ (Utf8.codepoints (stream.drop c₀.delivered)).length ∧ n ≤ calls ∧
      calls ≤ v.length + count ∧ c₀.Reached R stream calls c := by
  cases h with
  | @more w _ _ excerpt handed longer length =>
    obtain ⟨htake, hlength, hreached⟩ := Cursor.reached_of_handed haccount h₀ handed
    rw [htake] at excerpt
    exact ⟨false, w.length, w.length, rfl, excerpt, longer.length_le, hlength, Nat.le_refl _,
      Nat.le_of_eq length, hreached⟩
  | @ended w _ t _ excerpt handed longer length last =>
    obtain ⟨htake, hlength, hreached⟩ := Cursor.reached_of_handed haccount h₀ handed
    obtain ⟨c', hnext, hreached'⟩ := hreached.next haccount
    obtain ⟨-, rfl⟩ := Prod.mk.inj (last.symm.trans hnext)
    rw [htake] at excerpt
    exact ⟨true, w.length, w.length + 1, rfl, excerpt, longer.length_le, hlength, Nat.le_succ _,
      length, hreached'⟩
  | @failed w _ t _ _ _ handed _ _ last =>
    -- a cursor over a well-behaved source does not fail
    obtain ⟨-, -, hreached⟩ := Cursor.reached_of_handed haccount h₀ handed
    obtain ⟨c', hnext, -⟩ := hreached.next haccount
    exact nomatch (Prod.mk.inj (last.symm.trans hnext)).1

end

/-! ## A turn with a young place -/

namespace Engine

/-- What a turn of a search comes to that began with `x` at the cursor `c`, with a young oldest
    place.  The search began at `position`, and the turn has read on to `x'` and `c'`. -/
structure Retained {σ : Type} [ByteSource σ] (e : Engine) (stream : Bytes) (position : Nat)
    (x : Excerpt) (c : Cursor σ) (ended : Bool) (x' : Excerpt) (c' : Cursor σ) : Prop where
  /-- The oldest place is at most three bytes older than a window. -/
  age_le : x'.age x.keep ≤ e.window + 3
  /-- Offsets of this search are still counted from `position`. -/
  counted : c'.lastMatchEnd = position
  /-- The window still holds the oldest place. -/
  lower_le : c'.lower ≤ position + x.offset x.keep
  /-- What the turn answers with is held, and the cursor copies just these bytes of the stream. -/
  extracts {location : Span}
    (h : (ended = true ∧ e.conclude x' = some location) ∨
      (ended = false ∧ e.judge x' = .found location)) :
    c'.lower ≤ position + location.start ∧
    ∃ c'', c'.extract location.start (location.stop - location.start : Nat) =
      (.ok (Span.toMatch stream ⟨position + location.start, position + location.stop⟩), c'')
  /-- Before the end of the stream, a match is reported when a window lies behind the start of it.
      -/
  prompt {location : Span} (h : ended = false) (hjudge : e.judge x' = .found location) :
    location.start + e.window ≤ x'.frontier ∧ x'.frontier ≤ location.start + e.window + 3

/-- How far a turn reaches whose oldest place was young when it began: the last call of the reader
    comes before a window is full, and then comes one code point at most. -/
theorem Holds.reach_of_young {ρ : Type} [CodepointReader ρ] {e : Engine} {r s : ρ} {x : Excerpt}
    {v w : List Codepoint} {cut keep n calls : Nat} (h : e.Holds r v cut keep x s)
    (hsizes : ∀ c ∈ w, c.size ≤ Utf8.maxLength) (hv : v = w.take v.length)
    (hyoung : x.age x.keep < e.window) (hn : n ≤ v.length + e.pullCount x)
    (hcalls : calls ≤ v.length + e.pullCount x) :
    x.offset x.keep = width (w.take keep) ∧
      width (w.take n) ≤ width (w.take keep) + e.window + 3 ∧
      width (w.take (calls - 1)) ≤ width (w.take keep) + e.window := by
  have hkeep := h.keep_le
  have htake : v.take keep = w.take keep := by
    rw [hv, List.take_take, Nat.min_eq_left hkeep]
  have haged : width v - width (v.take keep) = aged w v.length keep := by
    rw [aged, ← hv, htake]
  rw [h.age_eq, haged] at hyoung
  have hpace := h.pullCount_eq
  rw [haged] at hpace
  rw [hpace] at hn hcalls
  obtain ⟨hlast, hold⟩ := reach_of_lt hsizes hkeep hyoung rfl
  have hread := width_take_le (w := w) hn
  have hcalled := width_take_le (w := w) (Nat.sub_le_sub_right hcalls 1)
  rw [aged, Utf8.maxLength] at hold
  exact ⟨h.offset_eq.trans (congrArg width htake), by omega, by omega⟩

end Engine

section
variable {σ : Type} {R : σ → Nat → Bytes → Prop} {positional : Bool} {stream : Bytes}
  {position : Nat} {e : Engine} {x x' : Excerpt} {cut keep n calls : Nat} {c₀ c c' : Cursor σ}

/-- Where a turn with a young oldest place leaves a search through the text behind `position`: it
    has read `n` code points in so many calls, and the last call came before a window was full. -/
structure Turned (R : σ → Nat → Bytes → Prop) (stream : Bytes) (position : Nat) (e : Engine)
    (cut keep n calls : Nat) (x' : Excerpt) (c₀ c' : Cursor σ) : Prop where
  ready : Ready R stream position e.window c₀
  excerpt : x' = .of ((Utf8.codepoints (stream.drop position)).take n) cut keep
  cut_le : cut ≤ keep
  keep_le : keep ≤ n
  length : n ≤ (Utf8.codepoints (stream.drop position)).length
  read : n ≤ calls
  reached : c₀.Reached R stream calls c'
  wide : width ((Utf8.codepoints (stream.drop position)).take n) ≤
    width ((Utf8.codepoints (stream.drop position)).take keep) + e.window + 3
  last : width ((Utf8.codepoints (stream.drop position)).take (calls - 1)) ≤
    width ((Utf8.codepoints (stream.drop position)).take keep) + e.window

namespace Turned

theorem length_take (h : Turned R stream position e cut keep n calls x' c₀ c') :
    ((Utf8.codepoints (stream.drop position)).take n).length = n := by
  rw [List.length_take, Nat.min_eq_left h.length]

theorem keep_le_length (h : Turned R stream position e cut keep n calls x' c₀ c') :
    keep ≤ ((Utf8.codepoints (stream.drop position)).take n).length := by
  rw [h.length_take]
  exact h.keep_le

theorem take_keep (h : Turned R stream position e cut keep n calls x' c₀ c') :
    ((Utf8.codepoints (stream.drop position)).take n).take keep =
      (Utf8.codepoints (stream.drop position)).take keep := by
  rw [List.take_take, Nat.min_eq_left h.keep_le]

/-- The oldest place of the turn is hardly older than a window. -/
theorem age_le (h : Turned R stream position e cut keep n calls x' c₀ c') :
    x'.age (keep - cut) ≤ e.window + 3 := by
  have hwide := h.wide
  rw [h.excerpt, Excerpt.age_of h.cut_le h.keep_le_length, h.take_keep]
  omega

/-- The window still holds the oldest place of the turn. -/
theorem lower_le (h : Turned R stream position e cut keep n calls x' c₀ c') :
    c'.lower ≤ position + width ((Utf8.codepoints (stream.drop position)).take keep) := by
  have hlower := h.reached.follows.tracks.lower_eq
  have hcapacity := h.reached.capacity.trans h.ready.capacity_eq
  have hstart := h.reached.start_le
  have hheld := h.ready.held
  have hlast := h.last
  rw [h.ready.delivered] at hstart
  omega

/-- What the turn answers with is held and can be copied. -/
theorem extracts [FiniteSource σ] (haccount : Account positional stream R)
    (hm : e.matcher.Confined) (h : Turned R stream position e cut keep n calls x' c₀ c')
    {location : Span} (hanswer : e.conclude x' = some location ∨ e.judge x' = .found location) :
    c'.lower ≤ position + location.start ∧
    ∃ c'', c'.extract location.start (location.stop - location.start : Nat) =
      (.ok (Span.toMatch stream ⟨position + location.start, position + location.stop⟩), c'') := by
  rw [h.excerpt] at hanswer
  obtain ⟨t, hfrom, horder, hstop, hlocation⟩ :=
    Engine.answer_span hm h.cut_le h.keep_le_length hanswer
  rw [h.length_take] at hstop
  rw [Span.inBytes_take (Nat.le_trans horder hstop) hstop] at hlocation
  have hlater := width_take_le (w := Utf8.codepoints (stream.drop position)) hfrom
  have hspan := width_take_le (w := Utf8.codepoints (stream.drop position)) horder
  have hlower := h.lower_le
  have hlast := h.last
  have hplace := h.ready.follows.position
  rw [h.ready.delivered] at hplace
  have hfound :=
    Scan.found_of_reached h.ready h.reached (Nat.le_trans hstop h.read) hlocation
  subst hlocation
  refine ⟨Nat.le_trans hlower (Nat.add_le_add_left hlater position), ?_⟩
  rcases hfound.extract haccount (Nat.add_le_add_left hspan position) (hplace.add t.stop) with
    ⟨c'', hextract, -⟩ | ⟨hlate, -⟩
  · exact ⟨c'', hextract⟩
  · refine absurd hlate (Finding.not_late (Nat.add_le_add_left hspan position) ?_)
    show position + width _ ≤ position + width _ + e.window
    omega

/-- A match is reported when a window lies behind the start of it, and hardly more. -/
theorem prompt (hm : e.matcher.Confined)
    (h : Turned R stream position e cut keep n calls x' c₀ c') {location : Span}
    (hjudge : e.judge x' = .found location) :
    location.start + e.window ≤ x'.frontier ∧ x'.frontier ≤ location.start + e.window + 3 := by
  have hwide := h.wide
  have hjudged := Engine.judged_judge hm h.cut_le h.keep_le_length
  rw [← h.excerpt, hjudge] at hjudged
  rw [h.excerpt, Excerpt.frontier_of (Nat.le_trans h.cut_le h.keep_le_length)]
  cases hjudged with
  | @found t hsettles start _ _ =>
    have hold : e.window ≤ _ - _ := hsettles.old
    have hlater := width_take_le (w := (Utf8.codepoints (stream.drop position)).take n) start
    have hstart := width_take_le_width ((Utf8.codepoints (stream.drop position)).take n) t.start
    rw [h.take_keep] at hlater
    show width _ + _ ≤ _ ∧ _ ≤ width _ + _ + 3
    omega

end Turned

variable [FiniteSource σ]

/-- A turn that begins with a young oldest place does not fail, and leaves the search so. -/
theorem Ready.turned (haccount : Account positional stream R) (hm : e.matcher.Confined)
    (hready : Ready R stream position e.window c₀) (hbegins : e.Begins c₀ x c)
    (hyoung : x.age x.keep < e.window) :
    ∃ cut keep n calls ended x' c', x.pull (e.pullCount x) c = (.ok ended, x', c') ∧
      x.keep = keep - cut ∧
      x.offset x.keep = width ((Utf8.codepoints (stream.drop position)).take keep) ∧
      Turned R stream position e cut keep n calls x' c₀ c' := by
  obtain ⟨v, cut, keep, hholds⟩ := hbegins.holds hm
  obtain ⟨hv, -, -⟩ := Cursor.reached_of_handed haccount hready.follows hholds.handed
  have hpulled := hholds.pull (e.pullCount x)
  rcases hpull : x.pull (e.pullCount x) c with ⟨answer, x', c'⟩
  rw [hpull] at hpulled
  obtain ⟨ended, n, calls, hok, hexcerpt, hmore, hlength, hread, hcount, hreached⟩ :=
    hpulled.reached haccount hready.follows
  have hsizes := Utf8.sizes_of_codepoints (b := stream.drop c₀.delivered) rfl
  rw [hready.delivered] at hv hexcerpt hlength hsizes
  obtain ⟨hoffset, hwide, hlast⟩ := hholds.reach_of_young (fun c hc => (hsizes c hc).2) hv hyoung
    (Nat.le_trans hread hcount) hcount
  refine ⟨cut, keep, n, calls, ended, x', c', by rw [← hok], ?_, hoffset, hready, hexcerpt,
    hholds.cut_le, Nat.le_trans hholds.keep_le hmore, hlength, hread, hreached, hwide, hlast⟩
  rw [hholds.excerpt]
  rfl

end

namespace Scan

variable {σ : Type} [FiniteSource σ] {positional : Bool} {stream : Bytes}

/-- In every turn of every search of a scan through a well-behaved source that begins with an oldest
    place younger than a window, reading on does not fail, it leaves that place in the window, and
    what the turn answers with can be copied. -/
theorem young_retained {m : Matcher} (hm : m.Confined) (size : Int) {source : σ}
    (hsource : WellBehaved positional stream source) {s : Scan Engine σ}
    (hs : Between (ofMatcher m source size) s) {x : Excerpt} {c : Cursor σ}
    (hbegins : s.engine.Begins s.cursor x c) (hyoung : x.age x.keep < s.engine.window) :
    ∃ ended x' c', x.pull (s.engine.pullCount x) c = (.ok ended, x', c') ∧
      s.engine.Retained stream s.cursor.delivered x c ended x' c' := by
  obtain ⟨R, haccount, hserves⟩ := hsource
  obtain ⟨position, c₀, rfl, hready⟩ := hs.ready haccount hm hserves
  rw [← window_engineOf m size] at hready
  obtain ⟨cut, keep, n, calls, ended, x', c', hpull, hkeep, hoffset, hturned⟩ :=
    hready.turned haccount hm hbegins hyoung
  refine ⟨ended, x', c', hpull, ?_⟩
  rw [show c₀.delivered = position from hready.delivered]
  constructor
  case age_le =>
    rw [hkeep]
    exact hturned.age_le
  case counted => exact hturned.reached.lastMatchEnd.trans hready.lastMatchEnd
  case lower_le =>
    rw [hoffset]
    exact hturned.lower_le
  case extracts =>
    exact fun h => hturned.extracts haccount hm (h.imp And.right And.right)
  case prompt => exact fun _ hjudge => hturned.prompt hm hjudge

/-- The word `ab` between euro signs, of three bytes each. -/
def wordAmongSigns : Bytes :=
  (List.replicate 7 [226, 130, 172]).flatten ++ [97, 98] ++
    (List.replicate 6 [226, 130, 172]).flatten

/-- A scan for that word in the stream, which arrives byte by byte. -/
def wordScan : Scan Engine Buffer :=
  ofMatcher (.literal ['a', 'b']) (Buffer.ofPayload wordAmongSigns (some 1) false) 16

/-- In the turn that answers with the word, the place of it is fourteen bytes old at first and then
    seventeen, one more than a window, and the window has lost the first bytes of the stream. -/
theorem young_retained_word :
    WellBehaved false wordAmongSigns (Buffer.ofPayload wordAmongSigns (some 1) false) ∧
    ∃ x c x' c', wordScan.engine.Begins wordScan.cursor x c ∧ x.age x.keep = 14 ∧
      x.pull (wordScan.engine.pullCount x) c = (.ok false, x', c') ∧
      wordScan.engine.Retained wordAmongSigns 0 x c false x' c' ∧
      wordScan.engine.judge x' = .found ⟨21, 23⟩ ∧ x'.age x.keep = 17 ∧ c'.lower = 19 := by
  have hbytewise : WellBehaved false wordAmongSigns
      (Buffer.ofPayload wordAmongSigns (some 1) false) :=
    Buffer.wellBehaved (by rintro _ ⟨⟩; decide) false _
  have hturn : (wordScan.engine.turnAfter 13 (.empty, wordScan.cursor)).map (fun t =>
      let pulled := t.1.pull (wordScan.engine.pullCount t.1) t.2
      (t.1.age t.1.keep, pulled.1, wordScan.engine.judge pulled.2.1, pulled.2.1.age t.1.keep,
        pulled.2.2.lower)) = some (14, .ok false, .found ⟨21, 23⟩, 17, 19) := by decide +kernel
  obtain ⟨⟨x, c⟩, hafter, hvalues⟩ := Option.map_eq_some_iff.mp hturn
  have hbegins : wordScan.engine.Begins wordScan.cursor x c := Engine.Begins.first.turnAfter hafter
  simp only [Prod.mk.injEq] at hvalues
  obtain ⟨hage, hended, hjudge, hage', hlower⟩ := hvalues
  have hyoung : x.age x.keep < wordScan.engine.window := by
    rw [hage]
    decide
  obtain ⟨ended, x', c', hpull, hretained⟩ := young_retained
    (Matcher.searches_literal ['a', 'b']).confined 16 hbytewise
    (show Between wordScan wordScan from .start) hbegins hyoung
  rw [hpull] at hended hjudge hage' hlower
  obtain rfl := Except.ok.inj hended
  exact ⟨hbytewise, x, c, x', c', hbegins, hage, hpull, hretained, hjudge, hage', hlower⟩

end Scan

end StreamScan

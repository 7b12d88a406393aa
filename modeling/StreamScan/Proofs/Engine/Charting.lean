import StreamScan.Proofs.Engine.Turning

/-!
# The offsets of a search

A search drops characters from the front of its excerpt in every turn, and their offsets with them.
The offsets that stay are not counted anew: each says, as before, how many bytes the reader had
handed out in this search when the character came.  So a place in the excerpt stands for one in the
text, and a match that is found in the excerpt for a stretch of the text, provided that characters,
offsets and the oldest place are always moved together.

They are, with any matcher whose searches name stretches of what they are shown, through any reader,
and at any moment: at the start of a turn, after each code point that is read in it, and when it
ends.

* **`Excerpt.Charts`** — an excerpt that shows the end of a text, with the offset of each character.
* **`Excerpt.Names`** — a location that stands for a match in such an excerpt.
* **`HandedOut`** — all that a reader has handed out when it has come to another state.
* **`Engine.Leads`** — the turns that follow on a turn.  One turn leaves the oldest place where it
  is or moves it on (`Holds.forward`), so along them it never moves back (`Begins.forward`).
* **`Engine.text_charted`** — what is held charts what was handed out, and every answer of a search
  stands for the match that its matcher found.
-/

namespace StreamScan

/-! ## Charts of a text -/

theorem letters_stretch (w : List Codepoint) (i j : Nat) :
    letters ((w.take j).drop i) = (letters w).extract i j := by
  rw [letters, letters, List.extract_toArray, List.extract_eq_take_drop, List.map_drop,
    List.map_take, List.drop_take]

namespace Excerpt

/-- How many code points of a text do not show in an excerpt of it any more. -/
def dropped (x : Excerpt) (v : List Codepoint) : Nat := v.length - x.chars.size

/-- An excerpt that shows the end of a text: its last characters, each with the number of bytes
    before it in the whole text. -/
structure Charts (x : Excerpt) (v : List Codepoint) : Prop where
  /-- There is an offset for each character, and one for the place after the last. -/
  size : x.offsets.size = x.chars.size + 1
  size_le : x.chars.size ≤ v.length
  chars : x.chars = letters (v.drop (x.dropped v))
  offset {place : Nat} (hplace : place ≤ x.chars.size) :
    x.offsets[place]? = some (width (v.take (x.dropped v + place)))
  frontier : x.offsets.back? = some (width v)
  keep_le : x.keep ≤ x.chars.size

/-- A location that stands for a stretch of an excerpt: it is the stretch of the text with the same
    characters. -/
structure Names (x : Excerpt) (v : List Codepoint) (found location : Span) : Prop where
  inside : x.dropped v + found.stop ≤ v.length
  start : location.start = width (v.take (x.dropped v + found.start))
  stop : location.stop = width (v.take (x.dropped v + found.stop))
  start_le : location.start ≤ location.stop
  stop_le : location.stop ≤ width v
  chars : letters ((v.take (x.dropped v + found.stop)).drop (x.dropped v + found.start)) =
    x.chars.extract found.start found.stop

section
variable {x : Excerpt} {v : List Codepoint} {cut keep : Nat}

theorem dropped_of (hcut : cut ≤ v.length) : (of v cut keep).dropped v = cut := by
  rw [dropped, size_chars_of]
  omega

/-- What a search holds is such an excerpt, wherever it is cut and whatever its oldest place is. -/
theorem charts_of (hcut : cut ≤ keep) (hkeep : keep ≤ v.length) : (of v cut keep).Charts v := by
  have hinside := Nat.le_trans hcut hkeep
  have hdropped : (of v cut keep).dropped v = cut := dropped_of hinside
  have hchars : (of v cut keep).chars.size = v.length - cut := size_chars_of
  refine ⟨?_, ?_, ?_, ?_, ?_, ?_⟩
  · rw [size_offsets_of hinside, hchars]
  · rw [hchars]
    exact Nat.sub_le _ _
  · rw [hdropped]
    rfl
  · intro place hplace
    rw [hchars] at hplace
    have hoffset : (of v cut keep).offsets[cut + place - cut]? =
        some (width (v.take (cut + place))) :=
      getElem?_offsets_of (Nat.le_add_right cut place) (by omega)
    rw [hdropped]
    rwa [Nat.add_sub_cancel_left] at hoffset
  · rw [Array.back?, size_offsets_of hinside, Nat.add_sub_cancel,
      getElem?_offsets_of hinside (Nat.le_refl _), List.take_length]
  · rw [hchars]
    exact Nat.sub_le_sub_right hkeep cut

namespace Charts

theorem offset_eq (h : x.Charts v) {place : Nat} (hplace : place ≤ x.chars.size) :
    x.offset place = width (v.take (x.dropped v + place)) := by
  rw [Excerpt.offset, Array.getD_eq_getD_getElem?, h.offset hplace]
  rfl

/-- A stretch of the excerpt, by its offsets. -/
theorem names (h : x.Charts v) {found : Span} (hspan : found.start ≤ found.stop)
    (hstop : found.stop ≤ x.chars.size) : x.Names v found (x.located found) where
  inside := by
    have hsize := h.size_le
    rw [dropped]
    omega
  start := h.offset_eq (Nat.le_trans hspan hstop)
  stop := h.offset_eq hstop
  start_le := by
    show x.offset found.start ≤ x.offset found.stop
    rw [h.offset_eq (Nat.le_trans hspan hstop), h.offset_eq hstop]
    exact width_take_le (Nat.add_le_add_left hspan _)
  stop_le := by
    show x.offset found.stop ≤ width v
    rw [h.offset_eq hstop]
    exact width_take_le_width v _
  chars := by
    have hstretch : (v.take (x.dropped v + found.stop)).drop (x.dropped v + found.start) =
        ((v.drop (x.dropped v)).take found.stop).drop found.start := by
      rw [List.take_drop, List.drop_drop]
    rw [hstretch, letters_stretch, ← h.chars]

end Charts

end

end Excerpt

/-! ## What has been handed out -/

section
variable {ρ : Type} [CodepointReader ρ] {r s : ρ} {v : List Codepoint} {cut keep count : Nat}

/-- All that a reader has handed out when it has come to another state.  It may have been called
    once more, when it had no more to hand out. -/
def HandedOut (r : ρ) (v : List Codepoint) (s : ρ) : Prop :=
  ∃ t, Handed r v t ∧ (s = t ∨ s = (CodepointReader.next t).2 ∧
    ∀ point, (CodepointReader.next t).1 ≠ .ok (some point))

/-- Whatever comes of reading on, what is held then is an excerpt of all that was handed out. -/
theorem Pulled.handedOut {answer : Except Failure Bool} {x : Excerpt}
    (h : Pulled r v cut keep count answer x s) :
    ∃ w, x = .of w cut keep ∧ v <+: w ∧ HandedOut r w s := by
  cases h with
  | more excerpt handed longer _ => exact ⟨_, excerpt, longer, _, handed, .inl rfl⟩
  | ended excerpt handed longer _ last =>
    refine ⟨_, excerpt, longer, _, handed, .inr ⟨by rw [last], fun point => ?_⟩⟩
    rw [last]
    exact nofun
  | failed excerpt handed longer _ last =>
    refine ⟨_, excerpt, longer, _, handed, .inr ⟨by rw [last], fun point => ?_⟩⟩
    rw [last]
    exact nofun

end

namespace Engine

section
variable {ρ : Type} [CodepointReader ρ] {e : Engine} {r s s₁ s' : ρ} {x x₁ x' : Excerpt}
  {v : List Codepoint} {cut keep : Nat}

/-! ## From turn to turn -/

/-- The turns that follow on a turn of a search, with that turn itself. -/
inductive Leads (e : Engine) (x : Excerpt) (s : ρ) : Excerpt → ρ → Prop
  | here : Leads e x s x s
  | again {x₁ x' rest : Excerpt} {s₁ s' : ρ} (h : Leads e x s x₁ s₁)
    (hpull : x₁.pull (e.pullCount x₁) s₁ = (.ok false, x', s'))
    (hjudge : e.judge x' = .undecided rest) : Leads e x s rest s'

theorem Begins.leads (h : e.Begins r x s) (hleads : e.Leads x s x₁ s₁) : e.Begins r x₁ s₁ := by
  induction hleads with
  | here => exact h
  | again _ hpull hjudge ih => exact .again ih hpull hjudge

/-- Reading on leaves the oldest place where it is. -/
theorem Holds.offset_pull (h : e.Holds r v cut keep x s) (count : Nat) :
    (x.pull count s).2.1.offset (x.pull count s).2.1.keep = x.offset x.keep := by
  obtain ⟨w, hexcerpt, ⟨u, rfl⟩, -⟩ := (h.pull count).handedOut
  have hkeep : keep ≤ (v ++ u).length := Nat.le_trans h.keep_le (List.prefix_append v u).length_le
  rw [hexcerpt, h.offset_eq]
  show (Excerpt.of (v ++ u) cut keep).offset (keep - cut) = _
  rw [Excerpt.offset_of h.cut_le hkeep, List.take_append_of_le_length h.keep_le]

/-- A turn leaves the oldest place where it is or moves it on. -/
theorem Holds.forward (hm : e.matcher.Confined) (h : e.Holds r v cut keep x s) {rest : Excerpt}
    (hpull : x.pull (e.pullCount x) s = (.ok false, x', s'))
    (hjudge : e.judge x' = .undecided rest) : x.offset x.keep ≤ rest.offset rest.keep := by
  obtain ⟨w, -, -, ⟨u, rfl⟩, -, hjudged⟩ := h.judged hm hpull
  rw [hjudge] at hjudged
  cases hjudged with
  | @undecided oldest le le_length _ _ _ _ =>
    have hcut := h.cut_le
    have hoffset : (Excerpt.of (v ++ u) (max cut (oldest - Excerpt.context)) oldest).offset
        (oldest - max cut (oldest - Excerpt.context)) = width ((v ++ u).take oldest) :=
      Excerpt.offset_of (by omega) le_length
    have hlater : width ((v ++ u).take keep) ≤ width ((v ++ u).take oldest) := width_take_le le
    rw [List.take_append_of_le_length h.keep_le] at hlater
    rw [h.offset_eq]
    exact Nat.le_trans hlater (Nat.le_of_eq hoffset.symm)

/-- Along the turns of a search the oldest place never moves back. -/
theorem Begins.forward (hm : e.matcher.Confined) (h : e.Begins r x s) (hleads : e.Leads x s x₁ s₁) :
    x.offset x.keep ≤ x₁.offset x₁.keep := by
  induction hleads with
  | here => exact Nat.le_refl _
  | again hleads hpull hjudge ih =>
    obtain ⟨v, cut, keep, hholds⟩ := (h.leads hleads).holds hm
    exact Nat.le_trans ih (hholds.forward hm hpull hjudge)

/-! ## Answers -/

/-- A location that is reported before the end is that of a match in the excerpt. -/
theorem located_of_judge {location : Span} (h : e.judge x = .found location) :
    ∃ found, e.matcher.search x.chars x.keep = some found ∧ location = x.located found := by
  rw [judge] at h
  split at h
  · cases h
  · split at h
    · rename_i found hfound
      split at h
      · exact ⟨found, hfound, (Verdict.found.inj h).symm⟩
      · cases h
    · cases h

/-- The last turn of a search answers with the location of a match in what it holds. -/
theorem Closes.located {location : Span} (h : e.Closes x s (.ok (some location)) s') :
    s' = (x.pull (e.pullCount x) s).2.2 ∧
      ∃ found, e.matcher.search (x.pull (e.pullCount x) s).2.1.chars
          (x.pull (e.pullCount x) s).2.1.keep = some found ∧
        location = (x.pull (e.pullCount x) s).2.1.located found := by
  generalize hanswer : (.ok (some location) : Except Failure (Option Span)) = answer at h
  cases h with
  | failed => exact nomatch hanswer
  | ended hpull =>
    rw [hpull]
    have hconclude := (Except.ok.inj hanswer).symm
    obtain ⟨found, hfound, hlocation⟩ := Option.map_eq_some_iff.mp hconclude
    exact ⟨rfl, found, hfound, hlocation.symm⟩
  | found hpull hjudge =>
    rw [hpull]
    obtain rfl := Option.some.inj (Except.ok.inj hanswer)
    exact ⟨rfl, located_of_judge hjudge⟩
  | refused => exact nomatch hanswer

/-- A location that goes back to a match in an excerpt of what a reader has handed out. -/
def Traced (e : Engine) (r : ρ) (x : Excerpt) (s : ρ) (location : Span) : Prop :=
  ∃ v found, HandedOut r v s ∧ x.Charts v ∧ e.matcher.search x.chars x.keep = some found ∧
    x.Names v found location

/-- What the offsets of a search through a reader are good for. -/
structure Charted (e : Engine) (r : ρ) : Prop where
  /-- At the start of a turn, and however many code points are read then, the excerpt charts all
      that was handed out, and reading does not move its oldest place. -/
  held {x : Excerpt} {s : ρ} (h : e.Begins r x s) (count : Nat) :
    (∃ v, HandedOut r v (x.pull count s).2.2 ∧ (x.pull count s).2.1.Charts v) ∧
      (x.pull count s).2.1.offset (x.pull count s).2.1.keep = x.offset x.keep
  /-- From turn to turn the oldest place never moves back. -/
  forward {x x₁ : Excerpt} {s s₁ : ρ} (h : e.Begins r x s) (hleads : e.Leads x s x₁ s₁) :
    x.offset x.keep ≤ x₁.offset x₁.keep
  /-- The location that the last turn answers with goes back to a match in what it holds. -/
  traced {x : Excerpt} {s s' : ρ} {location : Span} (h : e.Begins r x s)
    (hcloses : e.Closes x s (.ok (some location)) s') :
    e.Traced r (x.pull (e.pullCount x) s).2.1 s' location

theorem Holds.charts (h : e.Holds r v cut keep x s) (count : Nat) :
    ∃ w, HandedOut r w (x.pull count s).2.2 ∧ (x.pull count s).2.1.Charts w := by
  obtain ⟨w, hexcerpt, longer, hhanded⟩ := (h.pull count).handedOut
  rw [hexcerpt]
  exact ⟨w, hhanded, Excerpt.charts_of h.cut_le (Nat.le_trans h.keep_le longer.length_le)⟩

theorem Holds.traced (hm : e.matcher.Confined) (h : e.Holds r v cut keep x s) {location : Span}
    (hcloses : e.Closes x s (.ok (some location)) s') :
    e.Traced r (x.pull (e.pullCount x) s).2.1 s' location := by
  obtain ⟨rfl, found, hfound, rfl⟩ := hcloses.located
  obtain ⟨w, hhanded, hcharts⟩ := h.charts (e.pullCount x)
  obtain ⟨-, hspan, hstop⟩ := hm.search_some hfound
  exact ⟨w, found, hhanded, hcharts, hfound, hcharts.names hspan hstop⟩

/-- Whatever the reader hands out, and whether or not the search comes to an end. -/
theorem charted (hm : e.matcher.Confined) (r : ρ) : e.Charted r where
  held h count := by
    obtain ⟨v, cut, keep, hholds⟩ := h.holds hm
    exact ⟨hholds.charts count, hholds.offset_pull count⟩
  forward h hleads := h.forward hm hleads
  traced h hcloses := by
    obtain ⟨v, cut, keep, hholds⟩ := h.holds hm
    exact hholds.traced hm hcloses

end

/-- Whatever the matcher and the window are, a search through any reader keeps count of its places,
    and what it answers goes back to a match that its matcher found in its last turn. -/
theorem text_charted {e : Engine} (hm : e.matcher.Confined) :
    (∀ {ρ : Type} [CodepointReader ρ] (r : ρ), e.Charted r) ∧
      ∀ {ρ : Type} [FiniteReader ρ] (r : ρ) (location : Span),
        (e.findNext r).1 = .ok (some location) → ∃ x s, e.Begins r x s ∧
          e.Traced r (x.pull (e.pullCount x) s).2.1 (e.findNext r).2 location := by
  refine ⟨fun r => charted hm r, fun r location hanswer => ?_⟩
  obtain ⟨x, s, hbegins, hcloses⟩ := e.findNext_closes r
  rw [hanswer] at hcloses
  exact ⟨x, s, hbegins, (charted hm r).traced hbegins hcloses⟩

/-- Twelve signs of two bytes, a word, and dots. -/
def wordAfterSigns : List Codepoint :=
  List.replicate 12 ⟨'é', 2⟩ ++ [⟨'a', 1⟩, ⟨'b', 1⟩] ++ List.replicate 20 ⟨'.', 1⟩

/-- An engine that looks for the word in a window of sixteen bytes. -/
def wordEngine : Engine := ofMatcher (.literal ['a', 'b']) 16

/-- The word is named by its bytes, although the signs were dropped before it was found. -/
theorem text_charted_word :
    wordEngine.matcher.Confined ∧ wordEngine.Charted wordAfterSigns ∧
      (wordEngine.findNext wordAfterSigns).1 = .ok (some ⟨24, 26⟩) ∧
      ∃ x s, wordEngine.Begins wordAfterSigns x s ∧
        wordEngine.Traced wordAfterSigns (x.pull (wordEngine.pullCount x) s).2.1
          (wordEngine.findNext wordAfterSigns).2 ⟨24, 26⟩ := by
  have confined : wordEngine.matcher.Confined := (Matcher.searches_literal _).confined
  have answer : (wordEngine.findNext wordAfterSigns).1 = .ok (some ⟨24, 26⟩) := by decide +kernel
  obtain ⟨hcharted, htraced⟩ := text_charted confined
  exact ⟨confined, hcharted _, answer, htraced _ _ answer⟩

end Engine

end StreamScan

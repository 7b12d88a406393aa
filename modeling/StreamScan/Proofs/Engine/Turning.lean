import Mathlib.Control.Monad.Basic
import StreamScan.Proofs.Engine.Search

/-!
# The turns of a search through any reader

A search goes round a loop.  A turn reads on, judges what is held, and drops what can no longer
begin a match.  Here the loop is followed turn by turn through any reader, also through one that
never comes to an end, and with any matcher whose searches name stretches of the text they are shown
(`Matcher.Confined`).

What a turn begins with is an excerpt of what the reader has handed out, and the oldest place that
is kept lies at most eight characters behind the front of it.  How far that place may lie behind the
frontier is tested once in a turn, after reading: so the excerpt is widest just before the test.

* **`Handed`** — what a reader has handed out.
* **`Engine.Begins`**, **`Engine.Closes`** — what the turns begin with, and how the last one ends;
  every search ends with one (`findNext_closes`).
* **`Engine.Begins.holds`** — what is held at the start of a turn, by induction over the turns.
* **`Engine.text_bounded`** — how wide the excerpt ever is, and how far the search has read when it
  answers.
-/

namespace StreamScan

/-! ## What a reader hands out -/

section
variable {ρ : Type} [CodepointReader ρ]

/-- The code points that a reader has handed out when it has come to another state. -/
inductive Handed (r : ρ) : List Codepoint → ρ → Prop
  | start : Handed r [] r
  | next {v : List Codepoint} {s s' : ρ} {point : Codepoint} (h : Handed r v s)
    (hnext : CodepointReader.next s = (.ok (some point), s')) : Handed r (v ++ [point]) s'

/-- A reader whose code points take no more bytes than those of UTF-8. -/
def Measured (r : ρ) : Prop := ∀ v s, Handed r v s → ∀ c ∈ v, c.size ≤ Utf8.maxLength

/-- What comes of reading on, when an excerpt of `v` was held: so many code points more, or fewer
    and then the end or a failure. -/
inductive Pulled (r : ρ) (v : List Codepoint) (cut keep count : Nat) :
    Except Failure Bool → Excerpt → ρ → Prop
  | more {w : List Codepoint} {x : Excerpt} {s : ρ} (excerpt : x = .of w cut keep)
    (handed : Handed r w s) (longer : v <+: w) (length : w.length = v.length + count) :
    Pulled r v cut keep count (.ok false) x s
  | ended {w : List Codepoint} {x : Excerpt} {s s' : ρ} (excerpt : x = .of w cut keep)
    (handed : Handed r w s) (longer : v <+: w) (length : w.length < v.length + count)
    (last : CodepointReader.next s = (.ok none, s')) : Pulled r v cut keep count (.ok true) x s'
  | failed {w : List Codepoint} {x : Excerpt} {s s' : ρ} {failure : Failure}
    (excerpt : x = .of w cut keep) (handed : Handed r w s) (longer : v <+: w)
    (length : w.length < v.length + count) (last : CodepointReader.next s = (.error failure, s')) :
    Pulled r v cut keep count (.error failure) x s'

variable {r s : ρ} {v : List Codepoint} {cut keep count : Nat}

theorem pulled_pull (h : Handed r v s) (hcut : cut ≤ v.length) (count : Nat) :
    Pulled r v cut keep count ((Excerpt.of v cut keep).pull count s).1
      ((Excerpt.of v cut keep).pull count s).2.1 ((Excerpt.of v cut keep).pull count s).2.2 := by
  induction count generalizing v s with
  | zero => exact .more rfl h (List.prefix_refl v) rfl
  | succ count ih =>
    have hfewer : v.length < v.length + (count + 1) := Nat.lt_add_of_pos_right (Nat.succ_pos count)
    rw [Excerpt.pull]
    rcases hnext : CodepointReader.next s with ⟨failure | _ | point, s'⟩
    · exact .failed rfl h (List.prefix_refl v) hfewer hnext
    · exact .ended rfl h (List.prefix_refl v) hfewer hnext
    · have hlength : (v ++ [point]).length = v.length + 1 := List.length_append
      have hlonger : v <+: v ++ [point] := List.prefix_append v [point]
      have hmore := ih (h.next hnext) (by omega)
      simp only [Excerpt.push_of hcut]
      generalize (Excerpt.of (v ++ [point]) cut keep).pull count s' = result at hmore ⊢
      obtain ⟨answer, x', s''⟩ := result
      simp only at hmore ⊢
      cases hmore with
      | more excerpt handed longer length =>
        exact .more excerpt handed (hlonger.trans longer) (by omega)
      | ended excerpt handed longer length last =>
        exact .ended excerpt handed (hlonger.trans longer) (by omega) last
      | failed excerpt handed longer length last =>
        exact .failed excerpt handed (hlonger.trans longer) (by omega) last

/-- Whatever comes of reading on, what is held then is an excerpt of what was handed out. -/
theorem Pulled.holds {answer : Except Failure Bool} {x : Excerpt}
    (h : Pulled r v cut keep count answer x s) :
    ∃ w t, x = .of w cut keep ∧ Handed r w t ∧ v <+: w ∧ w.length ≤ v.length + count := by
  cases h with
  | more excerpt handed longer length =>
    exact ⟨_, _, excerpt, handed, longer, Nat.le_of_eq length⟩
  | ended excerpt handed longer length _ =>
    exact ⟨_, _, excerpt, handed, longer, Nat.le_of_lt length⟩
  | failed excerpt handed longer length _ =>
    exact ⟨_, _, excerpt, handed, longer, Nat.le_of_lt length⟩

end

namespace Engine

/-! ## Turns -/

section
variable {ρ : Type} [CodepointReader ρ] {e : Engine} {r s : ρ} {x : Excerpt}

/-- What the turns of a search begin with: the excerpt that is held, and the reader. -/
inductive Begins (e : Engine) (r : ρ) : Excerpt → ρ → Prop
  | first : Begins e r .empty r
  | again {x x' rest : Excerpt} {s s' : ρ} (h : Begins e r x s)
    (hpull : x.pull (e.pullCount x) s = (.ok false, x', s'))
    (hjudge : e.judge x' = .undecided rest) : Begins e r rest s'

/-- What the turn begins with that comes so many turns later, unless the search ends before it. -/
def turnAfter (e : Engine) : Nat → Excerpt × ρ → Option (Excerpt × ρ)
  | 0, t => some t
  | turns + 1, (x, s) =>
    match x.pull (e.pullCount x) s with
    | (.ok false, x', s') =>
      match e.judge x' with
      | .undecided rest => e.turnAfter turns (rest, s')
      | _ => none
    | _ => none

theorem Begins.turnAfter {turns : Nat} {x' : Excerpt} {s' : ρ} (h : e.Begins r x s)
    (hafter : e.turnAfter turns (x, s) = some (x', s')) : e.Begins r x' s' := by
  induction turns generalizing x s with
  | zero =>
    obtain ⟨rfl, rfl⟩ := Prod.mk.inj (Option.some.inj hafter)
    exact h
  | succ turns ih =>
    rw [Engine.turnAfter] at hafter
    split at hafter
    · rename_i hpull
      split at hafter
      · rename_i hjudge
        exact ih (h.again hpull hjudge) hafter
      · cases hafter
    · cases hafter

/-- How the last turn of a search ends. -/
inductive Closes (e : Engine) (x : Excerpt) (s : ρ) : Except Failure (Option Span) → ρ → Prop
  | failed {x' : Excerpt} {s' : ρ} {failure : Failure}
    (hpull : x.pull (e.pullCount x) s = (.error failure, x', s')) : Closes e x s (.error failure) s'
  | ended {x' : Excerpt} {s' : ρ} (hpull : x.pull (e.pullCount x) s = (.ok true, x', s')) :
    Closes e x s (.ok (e.conclude x')) s'
  | found {x' : Excerpt} {s' : ρ} {location : Span}
    (hpull : x.pull (e.pullCount x) s = (.ok false, x', s'))
    (hjudge : e.judge x' = .found location) : Closes e x s (.ok (some location)) s'
  | refused {x' : Excerpt} {s' : ρ} {failure : Failure}
    (hpull : x.pull (e.pullCount x) s = (.ok false, x', s'))
    (hjudge : e.judge x' = .refused failure) : Closes e x s (.error failure) s'

/-- What is held at the start of a turn: an excerpt of what was handed out, with no more than the
    context in front of the oldest place, and that place within the limit. -/
structure Holds (e : Engine) (r : ρ) (v : List Codepoint) (cut keep : Nat) (x : Excerpt) (s : ρ) :
    Prop where
  excerpt : x = .of v cut keep
  handed : Handed r v s
  cut_le : cut ≤ keep
  keep_le : keep ≤ v.length
  near : keep ≤ cut + Excerpt.context
  young : width v - width (v.take keep) ≤ e.limit

/-- Nothing is held at the start of the first turn. -/
theorem holds_empty (e : Engine) (r : ρ) : e.Holds r [] 0 0 .empty r where
  excerpt := rfl
  handed := .start
  cut_le := Nat.le_refl 0
  keep_le := Nat.le_refl 0
  near := Nat.zero_le _
  young := Nat.zero_le _

namespace Holds

variable {v : List Codepoint} {cut keep : Nat}

/-- What comes of reading on in a turn, or in a part of it. -/
theorem pull (h : e.Holds r v cut keep x s) (count : Nat) :
    Pulled r v cut keep count (x.pull count s).1 (x.pull count s).2.1 (x.pull count s).2.2 := by
  rw [h.excerpt]
  exact pulled_pull h.handed (Nat.le_trans h.cut_le h.keep_le) count

theorem offset_eq (h : e.Holds r v cut keep x s) : x.offset x.keep = width (v.take keep) := by
  rw [h.excerpt]
  exact Excerpt.offset_of h.cut_le h.keep_le

theorem age_eq (h : e.Holds r v cut keep x s) :
    x.age x.keep = width v - width (v.take keep) := by
  rw [h.excerpt]
  exact Excerpt.age_of h.cut_le h.keep_le

/-- How many code points are read in a turn. -/
theorem pullCount_eq (h : e.Holds r v cut keep x s) :
    e.pullCount x = e.pace (width v - width (v.take keep)) := by
  rw [Engine.pullCount_eq, h.age_eq]

/-- What a turn says that does not come to the end. -/
theorem judged (hm : e.matcher.Confined) (h : e.Holds r v cut keep x s) {x' : Excerpt} {s' : ρ}
    (hpull : x.pull (e.pullCount x) s = (.ok false, x', s')) :
    ∃ w, x' = .of w cut keep ∧ Handed r w s' ∧ v <+: w ∧ w.length = v.length + e.pullCount x ∧
      Judged (e.past cut) w cut keep (e.judge x') := by
  have hpulled := h.pull (e.pullCount x)
  rw [hpull] at hpulled
  cases hpulled with
  | @more w _ _ excerpt handed longer length =>
    have hkeep := Nat.le_trans h.keep_le longer.length_le
    obtain rfl : x' = .of w cut keep := excerpt
    exact ⟨w, rfl, handed, longer, length, judged_judge hm h.cut_le hkeep⟩

/-- A turn that neither ends nor answers leaves an excerpt of the same kind. -/
theorem again (hm : e.matcher.Confined) (h : e.Holds r v cut keep x s) {x' rest : Excerpt} {s' : ρ}
    (hpull : x.pull (e.pullCount x) s = (.ok false, x', s'))
    (hjudge : e.judge x' = .undecided rest) :
    ∃ w cut' keep', e.Holds r w cut' keep' rest s' := by
  obtain ⟨w, -, handed, -, -, hjudged⟩ := h.judged hm hpull
  rw [hjudge] at hjudged
  cases hjudged with
  | @undecided oldest le le_length _ _ young _ =>
    refine ⟨w, max cut (oldest - Excerpt.context), oldest, rfl, handed, ?_, le_length, ?_, ?_⟩
    · have hcut := h.cut_le
      omega
    · omega
    · -- at the end of what was read a place has no age
      by_cases hlt : oldest < w.length
      · exact young hlt
      · rw [List.take_of_length_le (Nat.le_of_not_lt hlt), Nat.sub_self]
        exact Nat.zero_le _

/-- What the last turn leaves behind: the reader has handed out all that was held, and was called
    once more if it had no more to hand out.  A location is a stretch of what was held. -/
theorem closes (hm : e.matcher.Confined) (h : e.Holds r v cut keep x s)
    {answer : Except Failure (Option Span)} {s' : ρ} (hcloses : e.Closes x s answer s') :
    ∃ w t, Handed r w t ∧ (s' = t ∨ s' = (CodepointReader.next t).2 ∧
        ∀ point, (CodepointReader.next t).1 ≠ .ok (some point)) ∧
      ∀ location, answer = .ok (some location) → ∃ span : Span, keep ≤ span.start ∧
        span.start ≤ span.stop ∧ span.stop ≤ w.length ∧ location = span.inBytes w := by
  cases hcloses with
  | failed hpull =>
    have hpulled := h.pull (e.pullCount x)
    rw [hpull] at hpulled
    cases hpulled with
    | @failed w _ t _ _ _ handed _ _ last =>
      refine ⟨w, t, handed, Or.inr ⟨by rw [last], fun point => ?_⟩, nofun⟩
      rw [last]
      exact nofun
  | @ended x' _ hpull =>
    have hpulled := h.pull (e.pullCount x)
    rw [hpull] at hpulled
    cases hpulled with
    | @ended w _ t _ excerpt handed longer _ last =>
      obtain rfl : x' = .of w cut keep := excerpt
      refine ⟨w, t, handed, Or.inr ⟨by rw [last], fun point => ?_⟩, fun location hanswer => ?_⟩
      · rw [last]
        exact nofun
      · exact answer_span hm h.cut_le (Nat.le_trans h.keep_le longer.length_le)
          (.inl (Except.ok.inj hanswer))
  | @found x' _ location hpull hjudge =>
    obtain ⟨w, rfl, handed, longer, -, -⟩ := h.judged hm hpull
    refine ⟨w, s', handed, Or.inl rfl, fun location hanswer => ?_⟩
    obtain rfl := Option.some.inj (Except.ok.inj hanswer)
    exact answer_span hm h.cut_le (Nat.le_trans h.keep_le longer.length_le) (.inr hjudge)
  | refused hpull hjudge =>
    obtain ⟨w, -, handed, -, -, -⟩ := h.judged hm hpull
    exact ⟨w, s', handed, Or.inl rfl, nofun⟩

end Holds

/-- Every turn begins so. -/
theorem Begins.holds (hm : e.matcher.Confined) (h : e.Begins r x s) :
    ∃ v cut keep, e.Holds r v cut keep x s := by
  induction h with
  | first => exact ⟨[], 0, 0, holds_empty e r⟩
  | again _ hpull hjudge ih =>
    obtain ⟨v, cut, keep, hholds⟩ := ih
    exact hholds.again hm hpull hjudge

end

/-- Every search goes through such turns and ends with one. -/
theorem findNext_closes {ρ : Type} [FiniteReader ρ] (e : Engine) (r : ρ) :
    ∃ x s, e.Begins r x s ∧ e.Closes x s (e.findNext r).1 (e.findNext r).2 := by
  -- each turn that does not end the search uses up the reader
  suffices hsearch : ∀ n x (s : ρ), FiniteReader.remaining s = n → e.Begins r x s →
      ∃ x' s', e.Begins r x' s' ∧ e.Closes x' s' (e.findFrom x s).1 (e.findFrom x s).2 from
    hsearch _ .empty r rfl .first
  intro n
  induction n using Nat.strongRecOn with
  | ind n ih =>
    intro x s hn hbegins
    rcases hpull : x.pull (e.pullCount x) s with ⟨failure | ended, x', s'⟩
    · rw [findFrom_error hpull]
      exact ⟨x, s, hbegins, .failed hpull⟩
    · cases ended with
      | true =>
        rw [findFrom_ended hpull]
        exact ⟨x, s, hbegins, .ended hpull⟩
      | false =>
        have hless := Excerpt.pull_remaining hpull
        have hcount := e.pullCount_pos x
        cases hjudge : e.judge x' with
        | found location =>
          rw [findFrom_found hpull hjudge]
          exact ⟨x, s, hbegins, .found hpull hjudge⟩
        | refused failure =>
          rw [findFrom_refused hpull hjudge]
          exact ⟨x, s, hbegins, .refused hpull hjudge⟩
        | undecided rest =>
          rw [findFrom_undecided hpull hjudge]
          exact ih (FiniteReader.remaining s') (by omega) rest s' rfl
            (.again hbegins hpull hjudge)

section
variable {ρ : Type} [CodepointReader ρ] {e : Engine} {r s t : ρ} {x : Excerpt}
  {v w : List Codepoint} {cut keep : Nat}

/-- The oldest place lies no more than the context behind the front of what is held. -/
theorem Holds.front_le (hr : Measured r) (h : e.Holds r v cut keep x s) :
    width (v.take keep) ≤ width (v.take cut) + Utf8.maxLength * Excerpt.context := by
  have hcontext := width_take_add_le (hr v s h.handed) cut Excerpt.context
  have hkeep : width (v.take keep) ≤ width (v.take (cut + Excerpt.context)) := width_take_le h.near
  exact Nat.le_trans hkeep hcontext

/-- In a turn the frontier moves on by a step at most, and the places up to the oldest stay. -/
theorem Holds.reach_le (hr : Measured r) (h : e.Holds r v cut keep x s) (hw : Handed r w t)
    (hlonger : v <+: w) {count : Nat} (hlength : w.length ≤ v.length + count)
    (hcount : count ≤ e.pullCount x) :
    w.take keep = v.take keep ∧
      width w ≤ width (v.take keep) + (e.limit + Utf8.maxLength * e.step) := by
  obtain ⟨u, rfl⟩ := hlonger
  have hyoung := h.young
  have hstep := e.pace_le (width v - width (v.take keep))
  have hmore := width_le fun c hc => hr _ t hw c (List.mem_append_right v hc)
  rw [List.length_append] at hlength
  rw [h.pullCount_eq] at hcount
  rw [width_append, List.take_append_of_le_length h.keep_le]
  refine ⟨rfl, ?_⟩
  rw [Utf8.maxLength] at *
  omega

/-- How much text a search holds, and how far it has read when it answers. -/
structure Bounded (e : Engine) (r : ρ) : Prop where
  /-- What is held in the course of a turn, from the start of it to the end of reading on. -/
  held {x : Excerpt} {s : ρ} (h : e.Begins r x s) {count : Nat} (hcount : count ≤ e.pullCount x) :
    (x.pull count s).2.1.frontier ≤
      (x.pull count s).2.1.offset 0 + (2 * e.window + 4 * e.step + 32)
  /-- A location that is found before the end begins no more than two windows behind the last code
      point that was handed out. -/
  found {x x' : Excerpt} {s s' : ρ} {location : Span} (h : e.Begins r x s)
    (hpull : x.pull (e.pullCount x) s = (.ok false, x', s'))
    (hjudge : e.judge x' = .found location) :
    ∃ v, Handed r v s' ∧ location.start ≤ width v ∧ width v ≤ location.start + 2 * e.window
  /-- A search is refused no later than two windows and a step behind the place that is named. -/
  refused {x x' : Excerpt} {s s' : ρ} {failure : Failure} (h : e.Begins r x s)
    (hpull : x.pull (e.pullCount x) s = (.ok false, x', s'))
    (hjudge : e.judge x' = .refused failure) :
    ∃ v start, Handed r v s' ∧ start ≤ width v ∧
      failure = .attemptStillOpen start (width v - start) e.limit ∧
      width v ≤ start + (2 * e.window + 4 * e.step)

/-- Whatever the matcher and the window are, and whatever the reader hands out, a search holds a
    bounded stretch of text and answers in time. -/
theorem text_bounded (hm : e.matcher.Confined) (hr : Measured r) : e.Bounded r where
  held {x s} h {count} hcount := by
    obtain ⟨v, cut, keep, hholds⟩ := h.holds hm
    obtain ⟨w, t, hexcerpt, hw, hlonger, hlength⟩ := (hholds.pull count).holds
    obtain ⟨hkept, hreach⟩ := hholds.reach_le hr hw hlonger hlength hcount
    have hfront := hholds.front_le hr
    have hcut := Nat.le_trans hholds.cut_le (Nat.le_trans hholds.keep_le hlonger.length_le)
    have hfirst : w.take cut = v.take cut := by
      have hboth := congrArg (List.take cut) hkept
      rwa [List.take_take, List.take_take, Nat.min_eq_left hholds.cut_le] at hboth
    have hoffset : (Excerpt.of w cut keep).offset (cut - cut) = width (w.take cut) :=
      Excerpt.offset_of (Nat.le_refl cut) hcut
    rw [Nat.sub_self, hfirst] at hoffset
    rw [hexcerpt, Excerpt.frontier_of hcut, hoffset]
    rw [Utf8.maxLength] at *
    rw [Excerpt.context] at hfront
    rw [limit] at hreach
    omega
  found {x x' s s' location} h hpull hjudge := by
    obtain ⟨v, cut, keep, hholds⟩ := h.holds hm
    obtain ⟨w, -, handed, -, -, hjudged⟩ := hholds.judged hm hpull
    rw [hjudge] at hjudged
    cases hjudged with
    | @found t _ _ _ young =>
      have hstart : width (w.take t.start) ≤ width w := width_take_le_width w t.start
      have hyoung : width w - width (w.take t.start) ≤ 2 * e.window := young
      refine ⟨w, handed, hstart, ?_⟩
      show width w ≤ width (w.take t.start) + 2 * e.window
      omega
  refused {x x' s s' failure} h hpull hjudge := by
    obtain ⟨v, cut, keep, hholds⟩ := h.holds hm
    obtain ⟨w, -, handed, longer, length, hjudged⟩ := hholds.judged hm hpull
    obtain ⟨hkept, hreach⟩ :=
      hholds.reach_le hr handed longer (Nat.le_of_eq length) (Nat.le_refl _)
    rw [hjudge] at hjudged
    cases hjudged with
    | @refused place le _ _ _ =>
      have hlater : width (v.take keep) ≤ width (w.take place) := by
        rw [← hkept]
        exact width_take_le le
      refine ⟨w, width (w.take place), handed, width_take_le_width w place, rfl, ?_⟩
      rw [limit, Utf8.maxLength] at hreach
      omega

/-- A list hands out its front. -/
theorem handed_list {l v s : List Codepoint} (h : Handed l v s) : l = v ++ s := by
  induction h with
  | start => rfl
  | next _ hnext ih =>
    rename_i v s s' point _
    cases s with
    | nil => exact nomatch Except.ok.inj (Prod.ext_iff.mp hnext).1
    | cons c rest =>
      obtain ⟨hpoint, rfl⟩ := Prod.ext_iff.mp hnext
      obtain rfl := Option.some.inj (Except.ok.inj hpoint)
      rw [ih, List.append_assoc]
      rfl

/-- Thirty signs of two bytes. -/
def signs : List Codepoint := List.replicate 30 ⟨'é', 2⟩

/-- An engine that looks for twenty of them in a window of sixteen bytes. -/
def signEngine : Engine := ofMatcher (.literal (List.replicate 20 'é')) 16

/-- The search for twenty signs is refused when the place at the start has been open for two
    windows. -/
theorem text_bounded_signs :
    signEngine.matcher.Confined ∧ Measured signs ∧ signEngine.Bounded signs ∧
      (signEngine.findNext signs).1 = .error (.attemptStillOpen 0 34 32) := by
  have confined : signEngine.matcher.Confined := (Matcher.searches_literal _).confined
  have measured : Measured signs := by
    intro v s hhanded c hc
    have hmem : c ∈ signs := by
      rw [handed_list hhanded]
      exact List.mem_append_left s hc
    rw [(List.mem_replicate.mp hmem).2]
    decide
  exact ⟨confined, measured, text_bounded confined measured, by decide +kernel⟩

end

end Engine

/-- A tape hands out its text. -/
theorem handed_tape {w v : List Codepoint} {s : Tape} (h : Handed (Tape.after w 0) v s) :
    v = w.take v.length ∧ v.length ≤ w.length ∧ s = Tape.after w v.length := by
  induction h with
  | start => exact ⟨rfl, Nat.zero_le _, rfl⟩
  | @next v s s' point _ hnext ih =>
    obtain ⟨htake, hlength, rfl⟩ := ih
    rw [Tape.next_after] at hnext
    obtain ⟨hpoint, rfl⟩ := Prod.ext_iff.mp hnext
    have hsome : w[v.length]? = some point := Except.ok.inj hpoint
    obtain ⟨hlt, rfl⟩ := List.getElem?_eq_some_iff.mp hsome
    have hlonger : (v ++ [w[v.length]]).length = v.length + 1 := List.length_append
    rw [hlonger]
    refine ⟨?_, hlt, rfl⟩
    rw [List.take_succ_eq_append_getElem hlt, ← htake]

end StreamScan

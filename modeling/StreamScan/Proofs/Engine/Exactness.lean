import StreamScan.Proofs.Engine.Search

/-!
# A search is exact or refuses

Whatever a search says before the end of its text holds of the whole text, as far as the laws of
the matcher go.  A place that has failed on part of the text begins no match later, so the first
match that settles is the leftmost one; and since a window of text lies behind its start, only a
match longer than the window could have taken its place.  At the end of the text nothing is left
open.  In between a search may refuse to go on, and then some place has been open for more than two
windows.

* **`ExactOrRefuses`** — the three cases.
* **`Seek.exact_or_refuses`** — the course of a search leads to one of them, by induction over its
  turns: no place before the oldest open one begins a match in the whole text.
* **`findNext_exact_or_refuses`** — the same for every reader that hands out the text.
-/

namespace StreamScan

/-- A reader that hands out a text and then says that there is no more. -/
def HandsOut {ρ : Type} [CodepointReader ρ] : ρ → List Codepoint → Prop
  | r, [] => (CodepointReader.next r).1 = .ok none
  | r, c :: rest =>
    (CodepointReader.next r).1 = .ok (some c) ∧ HandsOut (CodepointReader.next r).2 rest

/-- The state of a reader after so many calls. -/
def readerAfter {ρ : Type} [CodepointReader ρ] (r : ρ) : Nat → ρ
  | 0 => r
  | calls + 1 => (CodepointReader.next (readerAfter r calls)).2

/-- A reader that hands out a text answers as its tape does. -/
theorem alike_of_handsOut {ρ : Type} [CodepointReader ρ] (r : ρ) (w : List Codepoint) :
    AnswerAlike
      (fun t s => ∃ n, t = Tape.after w n ∧ s = readerAfter r n ∧ HandsOut s (w.drop n))
      (fun t s => ∃ n, t = Tape.after w n ∧ s = readerAfter r n) where
  answer {t s} h := by
    obtain ⟨n, rfl, -, hands⟩ := h
    rw [Tape.next_after]
    by_cases hn : n < w.length
    · rw [List.drop_eq_getElem_cons hn] at hands
      rw [hands.1, List.getElem?_eq_getElem hn]
    · rw [List.drop_eq_nil_of_le (Nat.le_of_not_lt hn)] at hands
      rw [show (CodepointReader.next s).1 = .ok none from hands,
        List.getElem?_eq_none (Nat.le_of_not_lt hn)]
  going {t s c} h hsome := by
    obtain ⟨n, rfl, rfl, hands⟩ := h
    rw [Tape.next_after] at hsome ⊢
    obtain ⟨hn, -⟩ := List.getElem?_eq_some_iff.mp (Except.ok.inj hsome)
    rw [List.drop_eq_getElem_cons hn] at hands
    exact ⟨n + 1, rfl, rfl, hands.2⟩
  last {t s} h := by
    obtain ⟨n, rfl, rfl, -⟩ := h
    rw [Tape.next_after]
    exact ⟨n + 1, rfl, rfl⟩
  enough {t s} h := by
    obtain ⟨n, ht, hs, -⟩ := h
    exact ⟨n, ht, hs⟩

namespace Engine

/-- What the answer of a search says of the whole text, given how many calls of the reader there
    were. -/
inductive ExactOrRefuses (e : Engine) (w : List Codepoint) :
    Except Failure (Option Span) → Nat → Prop
  /-- The location starts where the leftmost match does, and it is that match unless the match is
      longer than the window. -/
  | found {s location : Span} {calls : Nat} (leftmost : e.matcher.Leftmost (letters w) 0 s)
    (start : location.start = width (w.take s.start))
    (exact : width (w.take s.stop) - width (w.take s.start) ≤ e.window →
      location = s.inBytes w) :
    ExactOrRefuses e w (.ok (some location)) calls
  /-- There is no match. -/
  | absent {calls : Nat}
    (misses : ∀ place, place ≤ w.length → e.matcher.Misses (letters w) place) :
    ExactOrRefuses e w (.ok none) calls
  /-- A place was still open two windows behind the last code point that was read. -/
  | refused {failure : Failure} {calls place : Nat} (kind : failure.kind = .outOfWindow)
    (calls_le : calls ≤ w.length) (lt : place < calls)
    (isOpen : (e.matcher.attempt (letters (w.take calls)) place).isOpen = true)
    (old : 2 * e.window < width (w.take calls) - width (w.take place)) :
    ExactOrRefuses e w (.error failure) calls

variable {e : Engine} {w : List Codepoint}

/-- A search through a reader that hands out a text takes the turns of a search through the text. -/
theorem turns_of_handsOut (hm : e.matcher.Searches) {ρ : Type} [FiniteReader ρ] {r : ρ}
    (hr : HandsOut r w) :
    ∃ calls, Turns e w 0 0 0 (e.findNext r).1 calls ∧ (e.findNext r).2 = readerAfter r calls := by
  obtain ⟨calls, hturns, htape⟩ := turns_findNext hm w
  obtain ⟨hanswer, n, hn, hreader⟩ := findFrom_alike (e := e) (x := .empty)
    (alike_of_handsOut r w) ⟨0, rfl, rfl, hr⟩
  rw [findNext] at htape hturns
  rw [htape] at hn
  obtain rfl : calls = n := congrArg Tape.calls hn
  rw [hanswer] at hturns
  exact ⟨calls, hturns, hreader⟩

/-- A place that has failed on the front of a text begins no match in the whole text. -/
theorem misses_of_failed (hfinal : e.matcher.FinalOn (letters w)) {n place : Nat}
    (hplace : place < n) (hn : n ≤ w.length)
    (h : e.matcher.attempt (letters (w.take n)) place = .failed) :
    e.matcher.Misses (letters w) place := by
  rw [letters_take] at h
  exact hfinal hplace (by rw [size_letters]; exact hn) h

/-- The match that settles is the leftmost one of the whole text, or that one is longer than the
    window. -/
theorem Settles.exact (hm : e.matcher.Lawful Excerpt.context) (hsizes : ∀ c ∈ w, 1 ≤ c.size)
    {n keep : Nat} {s : Span} (hn : n ≤ w.length) (h : e.Settles (w.take n) keep s)
    (hruled : ∀ place, place < keep → e.matcher.Misses (letters w) place) :
    ∃ t, e.matcher.Leftmost (letters w) 0 t ∧ t.start = s.start ∧
      (width (w.take t.stop) - width (w.take t.start) ≤ e.window → t = s) := by
  have hlength : (w.take n).length = n := by rw [List.length_take, Nat.min_eq_left hn]
  have hinside := h.inside
  have hold := h.old
  obtain ⟨hkeep, hend, hmatched, -⟩ := hm.search_some h.search
  obtain ⟨hspan, -⟩ := hm.bounds hend hmatched
  rw [size_letters, hlength] at hend
  rw [hlength] at hinside
  rw [List.take_take, Nat.min_eq_left hend] at hold
  have hfirst : ∀ place, 0 ≤ place → place < s.start → e.matcher.Misses (letters w) place := by
    intro place _ hlt
    by_cases hbefore : place < keep
    · exact hruled place hbefore
    · have hfailed := h.failed place (Nat.le_of_not_lt hbefore) hlt
      exact misses_of_failed (hm.steady.finalOn _) (by omega) hn hfailed
  -- what follows the text so far can keep the match or make it reach further
  have hlater := hm.settled hmatched (by rw [size_letters, hlength]; exact hinside)
    (letters (w.drop n))
  rw [← letters_append, List.take_append_drop] at hlater
  rcases hlater with hsame | ⟨later, hlt, hmatched'⟩
  · refine ⟨s, ⟨Nat.zero_le _, ?_, hsame, hfirst⟩, rfl, fun _ => rfl⟩
    rw [size_letters]
    omega
  · rw [size_letters, hlength] at hlt
    have hstart : s.start ≤ (letters w).size := by
      rw [size_letters]
      omega
    have hstop := (hm.bounds hstart hmatched').2
    rw [size_letters] at hstop
    refine ⟨⟨s.start, later⟩, ⟨Nat.zero_le _, hstart, hmatched', hfirst⟩, rfl, fun hshort => ?_⟩
    have hbegin := width_take_le (w := w) hend
    have hmore := width_take_lt hsizes hlt hstop
    have hlong : e.window < width (w.take later) - width (w.take s.start) := by omega
    exact absurd hshort (Nat.not_le.mpr hlong)

/-- The course of a search leads to an answer that is exact, or it is refused. -/
theorem Seek.exact_or_refuses (hm : e.matcher.Lawful Excerpt.context)
    (hsizes : ∀ c ∈ w, 1 ≤ c.size) {n keep calls : Nat} {answer : Except Failure (Option Span)}
    (h : Seek e w n keep answer calls)
    (hruled : ∀ place, place < keep → e.matcher.Misses (letters w) place) :
    e.ExactOrRefuses w answer calls := by
  induction h with
  | ended hend =>
    rename_i n keep
    rw [← hm.search_from (Nat.zero_le keep) fun place _ hlt => hruled place hlt]
    cases hfound : e.matcher.search (letters w) 0 with
    | none =>
      refine .absent fun place hplace => ?_
      exact hm.search_none hfound (Nat.zero_le _) (by rw [size_letters]; exact hplace)
    | some s => exact .found (hm.search_some hfound) rfl fun _ => rfl
  | found hn hle hsettles =>
    obtain ⟨t, hleftmost, hstart, hexact⟩ := hsettles.exact hm hsizes hle hruled
    refine .found hleftmost ?_ fun hshort => ?_
    · rw [hstart]
      rfl
    · rw [hexact hshort]
  | refused hn hle hlingers =>
    rename_i n keep n' place
    have hlt := hlingers.lt
    have hold := hlingers.old
    rw [List.length_take, Nat.min_eq_left hle] at hlt
    rw [List.take_take, Nat.min_eq_left (Nat.le_of_lt hlt)] at hold
    exact .refused rfl hle hlt hlingers.isOpen hold
  | again hn hle hwaits hrest ih =>
    rename_i n keep n' rest calls answer
    have hend := hwaits.le_length
    rw [List.length_take, Nat.min_eq_left hle] at hend
    -- the places that were dropped in this turn have failed
    refine ih fun place hlt => ?_
    by_cases hbefore : place < keep
    · exact hruled place hbefore
    · exact misses_of_failed (hm.steady.finalOn _) (by omega) hle
        (hwaits.failed place (Nat.le_of_not_lt hbefore) hlt)

/-- A search through a reader that hands out a text is exact or refuses. -/
theorem findNext_exact_or_refuses {m : Matcher} (hm : m.Lawful Excerpt.context) (window : Int)
    {ρ : Type} [FiniteReader ρ] {r : ρ} (hr : HandsOut r w)
    (hsizes : ∀ c ∈ w, 1 ≤ c.size) :
    ∃ calls, (ofMatcher m window).ExactOrRefuses w ((ofMatcher m window).findNext r).1 calls ∧
      ((ofMatcher m window).findNext r).2 = readerAfter r calls := by
  obtain ⟨calls, hseek, htape⟩ := seek_findNext (e := ofMatcher m window) hm w
  obtain ⟨hanswer, n, hn, hreader⟩ := findFrom_alike (e := ofMatcher m window) (x := .empty)
    (alike_of_handsOut r w) ⟨0, rfl, rfl, hr⟩
  rw [findNext] at htape
  rw [htape] at hn
  rw [show readerAfter r 0 = r from rfl] at hanswer hreader
  have hcalls : calls = n := congrArg Tape.calls hn
  subst hcalls
  rw [findNext, ← hanswer, hreader]
  refine ⟨calls, ?_, rfl⟩
  exact hseek.exact_or_refuses hm hsizes fun place hlt => absurd hlt (Nat.not_lt_zero _)

/-- A list of code points hands itself out. -/
theorem handsOut_list (w : List Codepoint) : HandsOut w w := by
  induction w with
  | nil => rfl
  | cons c w ih => exact ⟨rfl, ih⟩

/-- The word `ab` behind a letter of two bytes. -/
theorem findNext_exact_or_refuses_word :
    (∃ calls, (ofMatcher (.literal ['a', 'b']) 16).ExactOrRefuses (codepointsOf "éaab")
        ((ofMatcher (.literal ['a', 'b']) 16).findNext (codepointsOf "éaab")).1 calls ∧
      ((ofMatcher (.literal ['a', 'b']) 16).findNext (codepointsOf "éaab")).2 =
        readerAfter (codepointsOf "éaab") calls) ∧
    ((ofMatcher (.literal ['a', 'b']) 16).findNext (codepointsOf "éaab")).1.toOption =
      some (some ⟨3, 5⟩) :=
  ⟨findNext_exact_or_refuses ((Matcher.lawful_literal _).mono (Nat.zero_le _)) 16
    (handsOut_list _) (by decide), by decide +kernel⟩

end Engine

end StreamScan

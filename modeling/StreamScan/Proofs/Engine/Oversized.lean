import Mathlib.Control.Monad.Basic
import StreamScan.Proofs.Engine.Timely

/-!
# Matches that are too long

A match may span two windows at most; a search is meant to refuse longer ones.  The limit is tested
when a turn has been read and more may follow, so at the end of the text a match can be longer by
what is read in one turn, though no longer than that.  This holds for every matcher.

If the first match of a text is too long, a search that sees it grow refuses it in the end, but it
may have answered before: once a window was read, a shorter match that was complete by then is taken
for the first match.  That is the one way in which a match is cut short (`findNext_truncated`).

* **`Fits`** — how long a location can be.
* **`Turns.fits`** — the locations that a search answers with are no longer.
* **`Oversized`** — what a search can make of a first match that is too long.
* **`findNext_oversized`** — both, for every reader that hands out the text.
-/

namespace StreamScan

namespace Engine

/-- A location spans two windows at most, or else it was found at the end of the text and spans no
    more than another turn reads. -/
inductive Fits (e : Engine) (w : List Codepoint) (location : Span) (calls : Nat) : Prop
  | inside (h : location.stop - location.start ≤ e.limit)
  | atEnd (ended : calls = w.length + 1) (step : 1 < e.step)
    (h : location.stop - location.start ≤ e.limit + Utf8.maxLength * (e.step - 1))

/-- What a search makes of the first match of a text, if that is longer than two windows. -/
inductive Oversized (e : Engine) (w : List Codepoint) (s : Span) :
    Except Failure (Option Span) → Nat → Prop
  /-- The match is refused. -/
  | refused {failure : Failure} {calls : Nat} (kind : failure.kind = .outOfWindow)
    (calls_le : calls ≤ w.length) : Oversized e w s (.error failure) calls
  /-- When a window or more had been read, the text so far had a shorter match.  It begins where the
      long one does, unless what followed has undone it. -/
  | shortened {t : Span} {calls : Nat} (calls_le : calls ≤ w.length)
    (leftmost : e.matcher.Leftmost (letters (w.take calls)) 0 t) (inside : t.stop < calls)
    (old : e.window ≤ aged w calls t.start) (start_le : t.start ≤ s.start)
    (start_eq : e.matcher.Lawful Excerpt.context → t.start = s.start) :
    Oversized e w s (.ok (some (t.inBytes w))) calls
  /-- The text was over before the limit was tested again. -/
  | atEnd (step : 1 < e.step)
    (h : width (w.take s.stop) - width (w.take s.start) ≤
      e.limit + Utf8.maxLength * (e.step - 1)) :
    Oversized e w s (.ok (some (s.inBytes w))) (w.length + 1)

variable {e : Engine} {w : List Codepoint} {n cut keep : Nat}

/-- How much text there can be behind the oldest place when a turn comes to the end. -/
theorem rest_le (hwindow : Cursor.minCapacity ≤ e.window)
    (hsizes : ∀ c ∈ w, c.size ≤ Utf8.maxLength) (hkeep : keep ≤ n) (hn : n ≤ w.length)
    (hyoung : aged w n keep ≤ e.limit) (hend : w.length < n + e.pace (aged w n keep)) :
    width w - width (w.take keep) ≤ e.limit ∨
      1 < e.step ∧ width w - width (w.take keep) ≤ e.limit + Utf8.maxLength * (e.step - 1) := by
  have hall : ∀ k, w.length ≤ k → width (w.take k) = width w := by
    intro k hk
    rw [List.take_of_length_le hk]
  by_cases hless : aged w n keep < e.window
  · obtain ⟨-, hreach⟩ := reach_of_lt hsizes hkeep hless rfl
    rw [aged, hall _ (Nat.le_of_lt hend)] at hreach
    rw [limit]
    rw [Cursor.minCapacity] at hwindow
    rw [Utf8.maxLength] at hreach
    exact Or.inl (by omega)
  · rw [pace_of_le (Nat.le_of_not_lt hless)] at hend
    have hmore := width_take_add_le hsizes n (e.step - 1)
    rw [hall _ (by omega)] at hmore
    rw [aged] at hyoung
    by_cases hstep : 1 < e.step
    · exact Or.inr ⟨hstep, by omega⟩
    · have hlast : n = w.length := by omega
      rw [hlast, hall _ (Nat.le_refl _)] at hyoung
      exact Or.inl hyoung

/-- A place that a turn goes on from is no older than the limit. -/
theorem Waits.aged_le (hn : n ≤ w.length) {rest : Nat} (h : e.Waits (w.take n) keep rest) :
    aged w n rest ≤ e.limit := by
  have hlength : (w.take n).length = n := by rw [List.length_take, Nat.min_eq_left hn]
  have hend := h.le_length
  rw [hlength] at hend
  rcases Nat.lt_or_eq_of_le hend with hlt | rfl
  · have hyoung := h.young (by rw [hlength]; exact hlt)
    rw [List.take_take, Nat.min_eq_left hend] at hyoung
    exact hyoung
  · rw [aged, Nat.sub_self]
    exact Nat.zero_le _

/-- A search answers with no location that is longer. -/
theorem Turns.fits (hm : e.matcher.Searches) (hwindow : Cursor.minCapacity ≤ e.window)
    (hsizes : ∀ c ∈ w, c.size ≤ Utf8.maxLength) {answer : Except Failure (Option Span)}
    {calls : Nat} (h : Turns e w n cut keep answer calls) (hkeep : keep ≤ n) (hn : n ≤ w.length)
    (hyoung : aged w n keep ≤ e.limit) {location : Span} (hanswer : answer = .ok (some location)) :
    e.Fits w location calls := by
  induction h with
  | ended hend =>
    obtain ⟨t, ht, rfl⟩ := Option.map_eq_some_iff.mp (Except.ok.inj hanswer)
    obtain ⟨hfrom, -⟩ := (hm.past _).search_some ht
    have hbegin := width_take_le (w := w) hfrom
    have hfinish := width_take_le_width w t.stop
    rcases rest_le hwindow hsizes hkeep hn hyoung hend with hrest | ⟨hstep, hrest⟩
    · refine .inside ?_
      show width (w.take t.stop) - width (w.take t.start) ≤ _
      omega
    · refine .atEnd rfl hstep ?_
      show width (w.take t.stop) - width (w.take t.start) ≤ _
      omega
  | found hnext hle hsettles hyoung' =>
    rename_i n cut keep n' s
    obtain rfl := Option.some.inj (Except.ok.inj hanswer)
    obtain ⟨-, -, hinside⟩ := hsettles.bounds (hm.past _)
    rw [List.length_take, Nat.min_eq_left hle] at hinside
    have hfinish := width_take_le (w := w) (Nat.le_of_lt hinside)
    refine .inside ?_
    show width (w.take s.stop) - width (w.take s.start) ≤ _
    rw [aged] at hyoung'
    omega
  | refused _ _ _ => cases hanswer
  | again hnext hle hwaits _ ih =>
    have hend := hwaits.le_length
    rw [List.length_take, Nat.min_eq_left hle] at hend
    exact ih hend hle (Waits.aged_le (e := e.past _) hle hwaits) hanswer

/-- A place that has failed on the front of a text begins no match in a longer front. -/
theorem misses_take {front place : Nat} (hfinal : e.matcher.FinalOn (letters (w.take front)))
    (hplace : place < n) (hn : n ≤ front) (hfront : front ≤ w.length)
    (h : e.matcher.attempt (letters (w.take n)) place = .failed) :
    e.matcher.Misses (letters (w.take front)) place := by
  refine misses_of_failed hfinal hplace ?_ ?_
  · rw [List.length_take, Nat.min_eq_left hfront]
    exact hn
  · rw [List.take_take, Nat.min_eq_left hn]
    exact h

/-- The match that settles, seen from the first match of the whole text. -/
theorem Settles.shortened (hm : e.matcher.Searches)
    (hfinal : ∀ front, e.matcher.FinalOn (letters (w.take front))) (hn : n ≤ w.length) {s t : Span}
    (hleftmost : e.matcher.Leftmost (letters w) 0 s) (h : e.Settles (w.take n) keep t)
    (hruled : ∀ place front, place < keep → n ≤ front → front ≤ w.length →
      e.matcher.Misses (letters (w.take front)) place) :
    Oversized e w s (.ok (some (t.inBytes w))) n := by
  have hlength : (w.take n).length = n := by rw [List.length_take, Nat.min_eq_left hn]
  obtain ⟨-, hspan, hinside⟩ := h.bounds hm
  obtain ⟨-, hend, hmatched, hfirst⟩ := hm.search_some h.search
  have hold := h.old
  rw [hlength] at hinside
  rw [List.take_take, Nat.min_eq_left (by omega)] at hold
  have hwhole : ∀ place, place < t.start → e.matcher.Misses (letters w) place := by
    intro place hlt
    have hmisses : e.matcher.Misses (letters (w.take w.length)) place := by
      by_cases hbefore : place < keep
      · exact hruled place w.length hbefore hn (Nat.le_refl _)
      · exact misses_take (hfinal _) (by omega) hn (Nat.le_refl _)
          (h.failed place (Nat.le_of_not_lt hbefore) hlt)
    rw [List.take_length] at hmisses
    exact hmisses
  have hstart : t.start ≤ s.start := by
    refine Nat.le_of_not_lt fun hlt => ?_
    exact hwhole s.start hlt _ hleftmost.matched
  refine .shortened hn ⟨Nat.zero_le _, hend, hmatched, ?_⟩ hinside hold hstart fun hlawful => ?_
  · intro place _ hlt
    by_cases hbefore : place < keep
    · exact hruled place n hbefore (Nat.le_refl _) hn
    · exact hfirst place (Nat.le_of_not_lt hbefore) hlt
  · -- a match that settles is not undone, so the whole text has one at this place
    have hlater := hlawful.settled hmatched (by rw [size_letters, hlength]; exact hinside)
      (letters (w.drop n))
    rw [← letters_append, List.take_append_drop] at hlater
    refine Nat.le_antisymm hstart (Nat.le_of_not_lt fun hlt => ?_)
    rcases hlater with hsame | ⟨later, -, hmore⟩
    · exact hleftmost.first t.start (Nat.zero_le _) hlt _ hsame
    · exact hleftmost.first t.start (Nat.zero_le _) hlt _ hmore

/-- What a search makes of a first match that is too long, by induction over its turns: no place
    before the oldest open one begins a match, in the text so far or later. -/
theorem Seek.oversized (hm : e.matcher.Searches)
    (hfinal : ∀ front, e.matcher.FinalOn (letters (w.take front)))
    (hwindow : Cursor.minCapacity ≤ e.window) (hsizes : ∀ c ∈ w, c.size ≤ Utf8.maxLength) {s : Span}
    (hleftmost : e.matcher.Leftmost (letters w) 0 s)
    (hlong : e.limit < width (w.take s.stop) - width (w.take s.start)) {calls : Nat}
    {answer : Except Failure (Option Span)} (h : Seek e w n keep answer calls) (hkeep : keep ≤ n)
    (hn : n ≤ w.length) (hyoung : aged w n keep ≤ e.limit)
    (hruled : ∀ place front, place < keep → n ≤ front → front ≤ w.length →
      e.matcher.Misses (letters (w.take front)) place) :
    Oversized e w s answer calls := by
  induction h with
  | ended hend =>
    rename_i n keep
    have hmisses : ∀ place, place < keep → e.matcher.Misses (letters w) place := by
      intro place hlt
      have hfront := hruled place w.length hlt hn (Nat.le_refl _)
      rw [List.take_length] at hfront
      exact hfront
    have hfrom : keep ≤ s.start := by
      refine Nat.le_of_not_lt fun hlt => ?_
      exact hmisses s.start hlt _ hleftmost.matched
    rw [← hm.search_from (Nat.zero_le keep) fun place _ hlt => hmisses place hlt,
      hm.search_eq_some hleftmost]
    have hbegin := width_take_le (w := w) hfrom
    have hfinish := width_take_le_width w s.stop
    rcases rest_le hwindow hsizes hkeep hn hyoung hend with hrest | ⟨hstep, hrest⟩
    · omega
    · exact .atEnd hstep (by omega)
  | found hnext hle hsettles =>
    have hlater := e.lt_of_pace hnext
    exact hsettles.shortened hm hfinal hle hleftmost fun place front hlt hfront =>
      hruled place front hlt (by omega)
  | refused _ hle _ => exact .refused rfl hle
  | again hnext hle hwaits _ ih =>
    rename_i n keep n' rest calls answer _
    have hlater := e.lt_of_pace hnext
    have hend := hwaits.le_length
    rw [List.length_take, Nat.min_eq_left hle] at hend
    refine ih hend hle (hwaits.aged_le hle) fun place front hlt hfront hfront' => ?_
    by_cases hbefore : place < keep
    · exact hruled place front hbefore (by omega) hfront'
    · exact misses_take (hfinal _) (by omega) hfront hfront'
        (hwaits.failed place (Nat.le_of_not_lt hbefore) hlt)

/-- A search answers with no location that is longer than two windows and one turn.  If attempts
    need few characters before them and fail for good, it lets a first match that is longer than two
    windows through only at the end of the text; it may have answered with a shorter one before. -/
theorem findNext_oversized {m : Matcher} (hm : m.Searches) (window : Int) {ρ : Type}
    [FiniteReader ρ] {r : ρ} (hr : HandsOut r w) (hsizes : ∀ c ∈ w, c.size ≤ Utf8.maxLength) :
    ∃ calls, ((ofMatcher m window).findNext r).2 = readerAfter r calls ∧
      (∀ location, ((ofMatcher m window).findNext r).1 = .ok (some location) →
        (ofMatcher m window).Fits w location calls) ∧
      (m.Near Excerpt.context → (∀ front, m.FinalOn (letters (w.take front))) →
        ∀ s, m.Leftmost (letters w) 0 s →
          (ofMatcher m window).limit < width (w.take s.stop) - width (w.take s.start) →
          (ofMatcher m window).Oversized w s ((ofMatcher m window).findNext r).1 calls) := by
  have hwindow : Cursor.minCapacity ≤ (ofMatcher m window).window := Nat.le_max_right _ _
  have hyoung : aged w 0 0 ≤ (ofMatcher m window).limit := by
    rw [aged, Nat.sub_self]
    exact Nat.zero_le _
  obtain ⟨calls, hturns, hreader⟩ := turns_of_handsOut (e := ofMatcher m window) hm hr
  refine ⟨calls, hreader, fun location hanswer => ?_, fun hnear hfinal s hleftmost hlong => ?_⟩
  · exact hturns.fits hm hwindow hsizes (Nat.le_refl 0) (Nat.zero_le _) hyoung hanswer
  · exact (hturns.seek hnear (.inl rfl)).oversized hm hfinal hwindow hsizes hleftmost hlong
      (Nat.le_refl 0) (Nat.zero_le _) hyoung fun place _ hlt => absurd hlt (Nat.not_lt_zero place)

/-- A word of forty letters and a window of sixteen bytes. -/
theorem findNext_oversized_word :
    ∃ calls, Oversized (ofMatcher (.literal (List.replicate 40 'a')) 16)
      (List.replicate 42 ⟨'a', 1⟩) ⟨0, 40⟩
      ((ofMatcher (.literal (List.replicate 40 'a')) 16).findNext
        (List.replicate 42 (⟨'a', 1⟩ : Codepoint))).1 calls := by
  have hlawful := Matcher.lawful_literal (List.replicate 40 'a')
  have hsizes : ∀ c ∈ List.replicate 42 (⟨'a', 1⟩ : Codepoint), c.size ≤ Utf8.maxLength := by
    decide
  have hleftmost : (Matcher.literal (List.replicate 40 'a')).Leftmost
      (letters (List.replicate 42 ⟨'a', 1⟩)) 0 ⟨0, 40⟩ :=
    ⟨Nat.le_refl 0, Nat.zero_le _, Matcher.literal_attempt_eq_matched.mpr (by decide +kernel),
      fun place _ hlt => absurd hlt (Nat.not_lt_zero place)⟩
  obtain ⟨calls, -, -, hoversized⟩ :=
    findNext_oversized hlawful.toSearches 16 (handsOut_list _) hsizes
  exact ⟨calls, hoversized (hlawful.near.mono (Nat.zero_le _))
    (fun _ => hlawful.steady.finalOn _) ⟨0, 40⟩ hleftmost (by decide)⟩

/-- A letter `a` with a tail that may be missing.  The text has the tail, but when a window was read
    the letter alone is a match and lies inside the text so far. -/
theorem findNext_truncated :
    HandsOut ((⟨'a', 1⟩ : Codepoint) :: List.replicate 40 ⟨'b', 1⟩ ++ [⟨'c', 1⟩])
      (⟨'a', 1⟩ :: List.replicate 40 ⟨'b', 1⟩ ++ [⟨'c', 1⟩]) ∧
    (Pattern.matcher ⟨.seq (.single (.code 97)) (.repeated ⟨0, some 1, .greedy⟩
        (.seq (.repeated ⟨40, some 40, .greedy⟩ (.single (.code 98))) (.single (.code 99)))),
        {}⟩).search
      (letters (⟨'a', 1⟩ :: List.replicate 40 ⟨'b', 1⟩ ++ [⟨'c', 1⟩])) 0 = some ⟨0, 42⟩ ∧
    ((ofMatcher (Pattern.matcher ⟨.seq (.single (.code 97)) (.repeated ⟨0, some 1, .greedy⟩
        (.seq (.repeated ⟨40, some 40, .greedy⟩ (.single (.code 98))) (.single (.code 99)))),
        {}⟩) 16).findNext ((⟨'a', 1⟩ : Codepoint) :: List.replicate 40 ⟨'b', 1⟩ ++ [⟨'c', 1⟩])).1 =
      .ok (some ⟨0, 1⟩) :=
  ⟨handsOut_list _, by decide +kernel, by decide +kernel⟩

end Engine

end StreamScan

import StreamScan.Proofs.Engine.Exactness

/-!
# Searches in a text that decides in time

In a text where no place stays open for longer than a window, and where the first match fits into
the window, a search is never refused: it answers with that match.  It also answers in time, which
means that it does not read on for long behind the match.

There is one exception.  If the match fills the window to its last byte, then the search cannot
tell, when the window is full, that the match ends here.  It reads on, and by then it reads in full
steps.  A step of one code point does no harm, but engines with a window of 128 bytes or more take
longer steps.

* **`Matcher.Decides`** — what is asked of the text.
* **`Stage`** — the invariant: the oldest open place is younger than a window, or it begins the
  first match and that fills the window.
* **`Timely`** — how far a search has read when it answers.
* **`Seek.timely`** — the search, by induction over its turns.
-/

namespace StreamScan

/-- Attempts on the front of a text are decided when they are as old as a window: none is
    unfinished, and where one has a match up to the end of what was read, the whole text has a match
    that ends there or later. -/
structure Matcher.Decides (m : Matcher) (w : List Codepoint) (window : Nat) : Prop where
  finished {n place : Nat} (hplace : place ≤ n) (hn : n ≤ w.length)
    (hold : window ≤ aged w n place) : m.attempt (letters (w.take n)) place ≠ .unfinished
  kept {n place : Nat} (hplace : place ≤ n) (hn : n ≤ w.length) (hold : window ≤ aged w n place)
    (h : m.attempt (letters (w.take n)) place = .matched n) :
    ∃ stop, n ≤ stop ∧ m.attempt (letters w) place = .matched stop

theorem aged_drop (w : List Codepoint) (k n place : Nat) :
    aged (w.drop k) n place = aged w (k + n) (k + place) := by
  rw [aged, aged, width_take_add, width_take_add]
  omega

/-- An attempt on the rest of a text is one on the text. -/
theorem Matcher.Lawful.attempt_drop {m : Matcher} (hm : m.Lawful 0) {v : List Codepoint}
    {k place : Nat} (hplace : k + place ≤ v.length) :
    m.attempt (letters v) (k + place) = (m.attempt (letters (v.drop k)) place).shifted k := by
  have hcut : k + 0 ≤ k + place := Nat.add_le_add_left (Nat.zero_le place) k
  rw [hm.context_le hcut (by rw [size_letters]; exact hplace), ← letters_drop,
    Nat.add_sub_cancel_left]

/-- The rest of a text decides as the text does. -/
theorem Matcher.Decides.drop {m : Matcher} (hm : m.Lawful 0) {w : List Codepoint} {window : Nat}
    (h : m.Decides w window) {k : Nat} (hk : k ≤ w.length) : m.Decides (w.drop k) window := by
  -- an attempt on the front of the rest, seen in the front of the text
  have hattempt : ∀ {n place : Nat}, place ≤ n → n ≤ (w.drop k).length →
      m.attempt (letters (w.take (k + n))) (k + place) =
        (m.attempt (letters ((w.drop k).take n)) place).shifted k := by
    intro n place hplace hn
    rw [List.length_drop] at hn
    rw [hm.attempt_drop (by rw [List.length_take]; omega), List.drop_take, Nat.add_sub_cancel_left]
  constructor
  · intro n place hplace hn hold hunfinished
    have hn' := hn
    rw [List.length_drop] at hn'
    rw [aged_drop] at hold
    refine h.finished (Nat.add_le_add_left hplace k) (by omega) hold ?_
    rw [hattempt hplace hn, hunfinished]
    rfl
  · intro n place hplace hn hold hmatched
    have hn' := hn
    rw [List.length_drop] at hn'
    rw [aged_drop] at hold
    have hfront : m.attempt (letters (w.take (k + n))) (k + place) = .matched (k + n) := by
      rw [hattempt hplace hn, hmatched, Nat.add_comm k n]
      rfl
    obtain ⟨stop, hstop, hwhole⟩ :=
      h.kept (Nat.add_le_add_left hplace k) (by omega) hold hfront
    rw [hm.attempt_drop (by omega)] at hwhole
    cases hcase : m.attempt (letters (w.drop k)) place with
    | failed => rw [hcase] at hwhole; exact nomatch hwhole
    | unfinished => rw [hcase] at hwhole; exact nomatch hwhole
    | matched stop' =>
      rw [hcase] at hwhole
      have heq : stop' + k = stop := Attempt.matched.inj hwhole
      exact ⟨stop', by omega, rfl⟩

/-- A text of code points of one byte decides where one word stands, if that fits into the
    window. -/
theorem Matcher.decides_literal {word : List Char} {w : List Codepoint} {window : Nat}
    (hsizes : ∀ c ∈ w, c.size = 1) (hword : word.length ≤ window) :
    (literal word).Decides w window := by
  constructor
  · intro n place hplace hn hold hunfinished
    rw [aged, width_take_eq hsizes hn, width_take_eq hsizes (Nat.le_trans hplace hn)] at hold
    change (if standsAt word _ place = true then _ else if _ then _ else _) = _ at hunfinished
    by_cases hstands : standsAt word (letters (w.take n)) place = true
    · rw [if_pos hstands] at hunfinished
      cases hunfinished
    · rw [if_neg hstands] at hunfinished
      split at hunfinished
      · rename_i hopen
        -- the rest of the text is too long to be only the front of the word
        have hprefix := List.isPrefixOf_iff_prefix.mp hopen
        have hlength := hprefix.length_le
        rw [List.length_drop, Array.length_toList, size_letters, List.length_take,
          Nat.min_eq_left hn] at hlength
        have hwhole : (letters (w.take n)).toList.drop place = word := by
          refine hprefix.eq_of_length ?_
          rw [List.length_drop, Array.length_toList, size_letters, List.length_take,
            Nat.min_eq_left hn]
          omega
        refine hstands ?_
        rw [standsAt, hwhole]
        exact List.isPrefixOf_iff_prefix.mpr (List.prefix_refl word)
      · cases hunfinished
  · intro n place hplace hn _ hmatched
    obtain ⟨hstands, hstop⟩ := literal_attempt_eq_matched.mp hmatched
    refine ⟨n, Nat.le_refl n, literal_attempt_eq_matched.mpr ⟨?_, hstop⟩⟩
    have hsplit : letters w = letters (w.take n) ++ letters (w.drop n) := by
      rw [← letters_append, List.take_append_drop]
    refine List.isPrefixOf_iff_prefix.mpr ((List.isPrefixOf_iff_prefix.mp hstands).trans ?_)
    rw [hsplit, Array.toList_append, List.drop_append_of_le_length]
    · exact List.prefix_append _ _
    · rw [Array.length_toList, size_letters, List.length_take, Nat.min_eq_left hn]
      exact hplace

namespace Engine

/-! ## How far a turn reads -/

section
variable {e : Engine} {w : List Codepoint} {n n' keep : Nat}

theorem step_le (e : Engine) : e.step = 1 ∨ 64 * e.step ≤ e.window := by
  rw [step]
  omega

theorem pace_of_lt {age : Nat} (h : age < e.window) :
    e.pace age = 1 ∨ age + Utf8.maxLength * e.pace age ≤ e.window := by
  have hroom : ¬ e.window - age = 0 := by omega
  rw [pace, if_neg hroom, Utf8.maxLength]
  omega

theorem pace_of_le {age : Nat} (h : e.window ≤ age) : e.pace age = e.step := by
  rw [pace]
  exact if_pos (Nat.sub_eq_zero_of_le h)

/-- While the oldest place is younger than a window, the last code point of a turn begins within
    the window. -/
theorem reach_of_lt (hsizes : ∀ c ∈ w, c.size ≤ Utf8.maxLength) (hkeep : keep ≤ n)
    (h : aged w n keep < e.window) (hn : n' = n + e.pace (aged w n keep)) :
    width (w.take (n' - 1)) < width (w.take keep) + e.window ∧
      aged w n' keep < e.window + Utf8.maxLength := by
  have hlater := e.lt_of_pace hn
  have hold := width_take_le (w := w) hkeep
  have hlast := width_take_add_le hsizes n (n' - 1 - n)
  have hall := width_take_add_le hsizes n (n' - n)
  rw [show n + (n' - 1 - n) = n' - 1 by omega] at hlast
  rw [show n + (n' - n) = n' by omega] at hall
  rw [aged] at h ⊢
  have hpace := pace_of_lt h
  rw [aged] at hn
  rw [Utf8.maxLength] at *
  omega

/-- When the oldest place is as old as a window, a turn reads on for less than a window. -/
theorem reach_of_eq (hwindow : Cursor.minCapacity ≤ e.window)
    (hsizes : ∀ c ∈ w, c.size ≤ Utf8.maxLength) (hkeep : keep ≤ n)
    (h : aged w n keep = e.window) (hn : n' = n + e.pace (aged w n keep)) :
    n' = n + e.step ∧ width (w.take (n' - 1)) ≤ width (w.take n) + e.window ∧
      aged w n' keep ≤ e.limit := by
  have hold := width_take_le (w := w) hkeep
  rw [h, pace_of_le (Nat.le_refl _)] at hn
  have hlater : 1 ≤ e.step := by
    rw [step]
    exact Nat.le_max_left _ _
  have hlast := width_take_add_le hsizes n (e.step - 1)
  have hall := width_take_add_le hsizes n e.step
  have hstep := e.step_le
  rw [← Nat.add_sub_assoc hlater, ← hn] at hlast
  rw [← hn] at hall
  rw [aged] at h ⊢
  rw [limit]
  rw [Cursor.minCapacity] at hwindow
  rw [Utf8.maxLength] at *
  omega

end

/-! ## The stages of a search -/

/-- How long the oldest open place has been open: less than a window, or else it begins the first
    match of the whole text and that fills the window. -/
inductive Stage (e : Engine) (w : List Codepoint) (n keep : Nat) : Prop
  | young (h : aged w n keep < e.window)
  | full (leftmost : e.matcher.Leftmost (letters w) 0 ⟨keep, n⟩) (h : aged w n keep = e.window)

/-- How far a search has read when it answers with the match `s`: at most a window beyond the start
    of the match, unless that fills the window and there is more text. -/
inductive Timely (e : Engine) (w : List Codepoint) (s : Span) (calls : Nat) : Prop
  | inTime (h : width (w.take (calls - 1)) ≤ width (w.take s.start) + e.window)
  | behind (step : 1 < e.step)
    (full : width (w.take s.stop) - width (w.take s.start) = e.window)
    (more : s.stop < w.length)
    (h : width (w.take (calls - 1)) ≤ width (w.take s.stop) + e.window)

variable {e : Engine} {w : List Codepoint} {n n' keep : Nat}

/-- A match that settles is the first match of the text, when that fits into the window. -/
theorem Settles.search_eq (hm : e.matcher.Lawful Excerpt.context)
    (hsizes : ∀ c ∈ w, 1 ≤ c.size) (hspan : ∀ s, e.matcher.Leftmost (letters w) 0 s →
      width (w.take s.stop) - width (w.take s.start) ≤ e.window)
    {s : Span} (hn : n ≤ w.length) (h : e.Settles (w.take n) keep s)
    (hruled : ∀ place, place < keep → e.matcher.Misses (letters w) place) :
    e.matcher.Leftmost (letters w) 0 s ∧ keep ≤ s.start := by
  obtain ⟨t, hleftmost, -, hexact⟩ := h.exact hm hsizes hn hruled
  obtain rfl := hexact (hspan t hleftmost)
  exact ⟨hleftmost, (hm.search_some h.search).index_le⟩

/-- No place lingers as long as the oldest one is not behind the limit. -/
theorem not_lingers {place : Nat} (hn : n ≤ w.length) (hlimit : aged w n keep ≤ e.limit) :
    ¬ e.Lingers (w.take n) keep place := by
  intro h
  have hold := h.old
  have hlt := h.lt
  rw [List.length_take, Nat.min_eq_left hn] at hlt
  rw [List.take_take, Nat.min_eq_left (Nat.le_of_lt hlt)] at hold
  have hle := width_take_le (w := w) h.le
  rw [aged] at hlimit
  omega

/-- An attempt that is open when it is as old as a window has a match up to what was read. -/
theorem Waits.matched (hm : e.matcher.Searches) (hdecides : e.matcher.Decides w e.window)
    (hn : n ≤ w.length) {rest : Nat} (h : e.Waits (w.take n) keep rest) (hrest : rest < n)
    (hold : e.window ≤ aged w n rest) :
    e.matcher.attempt (letters (w.take n)) rest = .matched n := by
  have hlength : (w.take n).length = n := by rw [List.length_take, Nat.min_eq_left hn]
  have hplace : rest ≤ (letters (w.take n)).size := by
    rw [size_letters, hlength]
    exact Nat.le_of_lt hrest
  have hopen := h.isOpen (by rw [hlength]; exact hrest)
  have hfinished := hdecides.finished (Nat.le_of_lt hrest) hn hold
  cases hcase : e.matcher.attempt (letters (w.take n)) rest with
  | failed =>
    rw [hcase] at hopen
    exact nomatch hopen
  | unfinished => exact absurd hcase hfinished
  | matched stop =>
    obtain ⟨-, hstop⟩ := hm.bounds hplace hcase
    rw [size_letters, hlength] at hstop
    have hleftmost : e.matcher.Leftmost (letters (w.take n)) keep ⟨rest, stop⟩ := by
      refine ⟨h.le, hplace, hcase, fun place hkeep hlt other hother => ?_⟩
      rw [h.failed place hkeep hlt] at hother
      exact nomatch hother
    have hpending := h.pending _ (hm.search_eq_some hleftmost) rfl
    rw [hlength, List.take_take, Nat.min_eq_left (Nat.le_of_lt hrest)] at hpending
    rw [aged] at hold
    have hend : ¬ stop < n := fun hlt => absurd (hpending hlt) (Nat.not_lt.mpr hold)
    rw [show stop = n by omega]

/-- The places that a turn drops begin no match, so it goes on from a place before which nothing
    does. -/
theorem Waits.ruled (hm : e.matcher.Lawful Excerpt.context) (hn : n ≤ w.length) {rest : Nat}
    (h : e.Waits (w.take n) keep rest)
    (hruled : ∀ place, place < keep → e.matcher.Misses (letters w) place) :
    ∀ place, place < rest → e.matcher.Misses (letters w) place := by
  have hend := h.le_length
  rw [List.length_take, Nat.min_eq_left hn] at hend
  intro place hlt
  by_cases hbefore : place < keep
  · exact hruled place hbefore
  · have hfailed := h.failed place (Nat.le_of_not_lt hbefore) hlt
    exact misses_of_failed (hm.steady.finalOn _) (by omega) hn hfailed

/-- When a turn goes on, the search is in one of the two stages. -/
theorem Waits.stage (hm : e.matcher.Lawful Excerpt.context)
    (hsizes : ∀ c ∈ w, 1 ≤ c.size) (hspan : ∀ s, e.matcher.Leftmost (letters w) 0 s →
      width (w.take s.stop) - width (w.take s.start) ≤ e.window)
    (hdecides : e.matcher.Decides w e.window) (hn : n ≤ w.length) (hwindow : 0 < e.window)
    {rest : Nat} (h : e.Waits (w.take n) keep rest)
    (hruled : ∀ place, place < keep → e.matcher.Misses (letters w) place) :
    Stage e w n rest := by
  by_cases hyoung : aged w n rest < e.window
  · exact .young hyoung
  · have hold := Nat.le_of_not_lt hyoung
    have hrest : rest < n := by
      refine Nat.lt_of_not_le fun hle => ?_
      have hwidth := width_take_le (w := w) hle
      rw [aged] at hold
      omega
    have hmatched := h.matched hm.toSearches hdecides hn hrest hold
    obtain ⟨stop, hstop, hwhole⟩ := hdecides.kept (Nat.le_of_lt hrest) hn hold hmatched
    have hplace : rest ≤ (letters w).size := by
      rw [size_letters]
      omega
    have hend := (hm.bounds hplace hwhole).2
    rw [size_letters] at hend
    have hleftmost : e.matcher.Leftmost (letters w) 0 ⟨rest, stop⟩ :=
      ⟨Nat.zero_le _, hplace, hwhole, fun place _ => h.ruled hm hn hruled place⟩
    have hfits : width (w.take stop) - width (w.take rest) ≤ e.window := hspan _ hleftmost
    have hwidth := width_take_le (w := w) hstop
    rw [aged] at hold
    -- the match in the whole text is no wider than the window, so it ends where the window does
    have hsame : stop = n := by
      refine Nat.le_antisymm (Nat.le_of_not_lt fun hlt => ?_) hstop
      have hmore := width_take_lt hsizes hlt hend
      omega
    rw [hsame] at hleftmost hfits
    exact .full hleftmost (Nat.le_antisymm hfits hold)

/-- A search whose oldest place fills the window is decided in its next turn. -/
theorem Waits.not_full (hm : e.matcher.Lawful Excerpt.context)
    (hdecides : e.matcher.Decides w e.window) (hkeep : keep ≤ n) (hlater : n < n')
    (hn' : n' ≤ w.length) (hleftmost : e.matcher.Leftmost (letters w) 0 ⟨keep, n⟩)
    (hold : e.window ≤ aged w n keep) {rest : Nat} : ¬ e.Waits (w.take n') keep rest := by
  intro h
  -- the match of the whole text begins at `keep`, so this place is not dropped
  have hrest : rest = keep := by
    refine Nat.le_antisymm (Nat.le_of_not_lt fun hlt => ?_) h.le
    have hfailed := h.failed keep (Nat.le_refl _) hlt
    exact misses_of_failed (hm.steady.finalOn _) (by omega) hn' hfailed n hleftmost.matched
  subst hrest
  have hwidth := width_take_le (w := w) (Nat.le_of_lt hlater)
  have hold' : e.window ≤ aged w n' rest := by
    rw [aged] at hold ⊢
    omega
  have hmatched := h.matched hm.toSearches hdecides hn' (by omega) hold'
  obtain ⟨stop, hstop, hwhole⟩ := hdecides.kept (by omega) hn' hold' hmatched
  have hsame := hleftmost.matched
  rw [hwhole] at hsame
  have heq : stop = n := Attempt.matched.inj hsame
  omega

/-- How far a search has read when its answer comes in the next turn, at the latest. -/
theorem Stage.timely (hwindow : Cursor.minCapacity ≤ e.window)
    (hsizes : ∀ c ∈ w, c.size ≤ Utf8.maxLength) (hkeep : keep ≤ n)
    (hnext : n' = n + e.pace (aged w n keep)) (h : Stage e w n keep) {s : Span}
    (hleftmost : e.matcher.Leftmost (letters w) 0 s) (hstart : keep ≤ s.start) {calls : Nat}
    (hcalls : calls ≤ n') (hend : calls - 1 ≤ w.length) : Timely e w s calls := by
  have hread := width_take_le (w := w) (Nat.sub_le_sub_right hcalls 1)
  cases h with
  | young h =>
    obtain ⟨hreach, -⟩ := reach_of_lt hsizes hkeep h hnext
    have hbegin := width_take_le (w := w) hstart
    exact .inTime (by omega)
  | full hfirst h =>
    obtain ⟨hstep, hreach, -⟩ := reach_of_eq hwindow hsizes hkeep h hnext
    obtain rfl := hleftmost.unique hfirst
    rw [aged] at h
    by_cases hsoon : calls - 1 ≤ n
    · have hbefore := width_take_le (w := w) hsoon
      refine .inTime ?_
      show _ ≤ width (w.take keep) + e.window
      omega
    · refine .behind (by omega) h ?_ (Nat.le_trans hread hreach)
      show n < w.length
      omega

/-- In a text that decides in time, and where the first match fits into the window, a search answers
    with that match, and in time. -/
theorem Seek.timely (hm : e.matcher.Lawful Excerpt.context)
    (hwindow : Cursor.minCapacity ≤ e.window)
    (hsizes : ∀ c ∈ w, 1 ≤ c.size ∧ c.size ≤ Utf8.maxLength)
    (hspan : ∀ s, e.matcher.Leftmost (letters w) 0 s →
      width (w.take s.stop) - width (w.take s.start) ≤ e.window)
    (hdecides : e.matcher.Decides w e.window) {calls : Nat}
    {answer : Except Failure (Option Span)} (h : Seek e w n keep answer calls) (hkeep : keep ≤ n)
    (hn : n ≤ w.length) (hruled : ∀ place, place < keep → e.matcher.Misses (letters w) place)
    (hstage : Stage e w n keep) :
    answer = .ok ((e.matcher.search (letters w) 0).map (Span.inBytes w)) ∧
      ∀ s, e.matcher.search (letters w) 0 = some s → Timely e w s calls := by
  have hleast : ∀ c ∈ w, 1 ≤ c.size := fun c hc => (hsizes c hc).1
  have hmost : ∀ c ∈ w, c.size ≤ Utf8.maxLength := fun c hc => (hsizes c hc).2
  have hpositive : 0 < e.window := Nat.lt_of_lt_of_le (by decide) hwindow
  induction h with
  | ended hend =>
    rename_i n keep
    have hsearch := hm.search_from (Nat.zero_le keep) fun place _ hlt => hruled place hlt
    rw [hsearch]
    refine ⟨rfl, fun s hs => ?_⟩
    obtain ⟨hstart, -⟩ := hm.search_some hs
    rw [← hsearch] at hs
    exact hstage.timely hwindow hmost hkeep rfl (hm.search_some hs) hstart hend
      (Nat.le_of_eq (Nat.add_sub_cancel _ _))
  | found hnext hle hsettles =>
    rename_i n keep n' s
    obtain ⟨hleftmost, hstart⟩ := hsettles.search_eq hm hleast hspan hle hruled
    rw [hm.search_eq_some hleftmost]
    refine ⟨rfl, fun t ht => ?_⟩
    obtain rfl := Option.some.inj ht
    exact hstage.timely hwindow hmost hkeep hnext hleftmost hstart (Nat.le_refl _) (by omega)
  | refused hnext hle hlingers =>
    rename_i n keep n' place
    refine absurd hlingers (not_lingers hle ?_)
    cases hstage with
    | young h =>
      obtain ⟨-, hreach⟩ := reach_of_lt hmost hkeep h hnext
      have hlength : Utf8.maxLength ≤ Cursor.minCapacity := by decide
      rw [limit]
      omega
    | full _ h => exact (reach_of_eq hwindow hmost hkeep h hnext).2.2
  | again hnext hle hwaits hrest ih =>
    rename_i n keep n' rest calls answer
    have hlater := e.lt_of_pace hnext
    have hend := hwaits.le_length
    rw [List.length_take, Nat.min_eq_left hle] at hend
    -- a turn from a young place leads to a stage again; from a full one it was the last
    cases hstage with
    | young h =>
      exact ih hend hle (hwaits.ruled hm hle hruled)
        (hwaits.stage hm hleast hspan hdecides hle hpositive hruled)
    | full hleftmost h =>
      exact absurd hwaits
        (Waits.not_full hm hdecides hkeep hlater hle hleftmost (Nat.le_of_eq h.symm))

/-- The same of a search from the start of a text, and how often it calls its reader. -/
theorem findNext_timely (hm : e.matcher.Lawful 0) (hwindow : Cursor.minCapacity ≤ e.window)
    (hsizes : ∀ c ∈ w, 1 ≤ c.size ∧ c.size ≤ Utf8.maxLength)
    (hspan : ∀ s, e.matcher.Leftmost (letters w) 0 s →
      width (w.take s.stop) - width (w.take s.start) ≤ e.window)
    (hdecides : e.matcher.Decides w e.window) :
    ∃ calls, e.findNext (Tape.after w 0) =
        (.ok ((e.matcher.search (letters w) 0).map (Span.inBytes w)), Tape.after w calls) ∧
      Seek e w 0 0 (e.findNext (Tape.after w 0)).1 calls ∧
      ∀ s, e.matcher.search (letters w) 0 = some s → Timely e w s calls := by
  have hcontext := hm.mono (Nat.zero_le Excerpt.context)
  have hyoung : aged w 0 0 < e.window := by
    rw [aged, Nat.sub_self]
    exact Nat.lt_of_lt_of_le (by decide) hwindow
  obtain ⟨calls, hseek, htape⟩ := seek_findNext hcontext w
  obtain ⟨hanswer, htimely⟩ := hseek.timely hcontext hwindow hsizes hspan hdecides
    (Nat.le_refl 0) (Nat.zero_le _) (fun place hlt => absurd hlt (Nat.not_lt_zero place))
    (.young hyoung)
  exact ⟨calls, Prod.ext hanswer htape, hseek, htimely⟩

/-! ## The exception -/

/-- A search reads on in each turn. -/
theorem Seek.lt_calls {calls : Nat} {answer : Except Failure (Option Span)}
    (h : Seek e w n keep answer calls) (hn : n ≤ w.length) : n < calls := by
  induction h with
  | ended _ => exact Nat.lt_succ_of_le hn
  | found hnext _ _ => exact e.lt_of_pace hnext
  | refused hnext _ _ => exact e.lt_of_pace hnext
  | again hnext hle _ _ ih => exact Nat.lt_trans (e.lt_of_pace hnext) (ih hle)

/-- As long as a place is younger than a window, a turn does not read beyond the window. -/
theorem next_le_of_lt (hsizes : ∀ c ∈ w, 1 ≤ c.size ∧ c.size ≤ Utf8.maxLength) {k : Nat}
    (hkeep : keep ≤ n) (hn : n < k) (hk : k < w.length)
    (hfull : width (w.take k) - width (w.take keep) = e.window)
    (hnext : n' = n + e.pace (aged w n keep)) : n' ≤ k := by
  have hold := width_take_le (w := w) hkeep
  have hless := width_take_lt (fun c hc => (hsizes c hc).1) hn (Nat.le_of_lt hk)
  have haged : aged w n keep = width (w.take n) - width (w.take keep) := rfl
  rcases pace_of_lt (e := e) (show aged w n keep < e.window by omega) with hone | hmany
  · omega
  · refine Nat.le_of_not_lt fun hlt => ?_
    have hmore := width_take_add_le (fun c hc => (hsizes c hc).2) n (e.pace (aged w n keep))
    have hover := width_take_lt (fun c hc => (hsizes c hc).1) (Nat.lt_add_one k) hk
    have hreach : width (w.take (k + 1)) ≤ width (w.take n') := width_take_le hlt
    rw [← hnext] at hmore
    omega

/-- A search whose oldest place begins a match that fills the window, with more text behind it,
    reads on beyond the window if the engine takes longer steps. -/
theorem Seek.behind (hm : e.matcher.Lawful Excerpt.context)
    (hsizes : ∀ c ∈ w, 1 ≤ c.size ∧ c.size ≤ Utf8.maxLength) (hstep : 1 < e.step) {k : Nat}
    (hfirst : e.matcher.Leftmost (letters w) 0 ⟨keep, k⟩)
    (hfull : width (w.take k) - width (w.take keep) = e.window) (hmore : k < w.length)
    {calls : Nat} {answer : Except Failure (Option Span)} (h : Seek e w n keep answer calls)
    (hkeep : keep ≤ n) (hn : n ≤ k) : k + 1 < calls := by
  have hspan : ∀ s, e.matcher.Leftmost (letters w) 0 s →
      width (w.take s.stop) - width (w.take s.start) ≤ e.window := by
    intro s hs
    rw [hs.unique hfirst]
    exact Nat.le_of_eq hfull
  have hruled : ∀ place, place < keep → e.matcher.Misses (letters w) place := fun place =>
    hfirst.first place (Nat.zero_le place)
  induction h with
  | ended hend =>
    rename_i n keep
    rcases Nat.lt_or_eq_of_le hn with hless | rfl
    · have hread := next_le_of_lt hsizes hkeep hless hmore hfull rfl
      omega
    · exact Nat.succ_lt_succ hmore
  | found hnext hle hsettles =>
    -- a match settles only when something behind it was read, so not before the window is full
    rename_i n keep n' s
    have hinside := hsettles.inside
    rw [List.length_take, Nat.min_eq_left hle] at hinside
    obtain ⟨hleftmost, -⟩ :=
      hsettles.search_eq hm (fun c hc => (hsizes c hc).1) hspan hle hruled
    obtain rfl := hleftmost.unique hfirst
    rcases Nat.lt_or_eq_of_le hn with hless | rfl
    · have hread := next_le_of_lt hsizes hkeep hless hmore hfull hnext
      exact absurd hinside (Nat.not_lt.mpr hread)
    · rw [aged, hfull, pace_of_le (Nat.le_refl _)] at hnext
      omega
  | refused hnext hle hlingers =>
    rename_i n keep n' place
    rcases Nat.lt_or_eq_of_le hn with hless | rfl
    · have hread := next_le_of_lt hsizes hkeep hless hmore hfull hnext
      have hwidth := width_take_le (w := w) hread
      refine absurd hlingers (not_lingers hle ?_)
      rw [aged, limit]
      omega
    · rw [aged, hfull, pace_of_le (Nat.le_refl _)] at hnext
      omega
  | again hnext hle hwaits hrest ih =>
    rename_i n keep n' rest calls answer
    rcases Nat.lt_or_eq_of_le hn with hless | rfl
    · have hread := next_le_of_lt hsizes hkeep hless hmore hfull hnext
      have hlater := e.lt_of_pace hnext
      -- the place that begins the match does not fail, so it is still the oldest
      have hsame : rest = keep := by
        refine Nat.le_antisymm (Nat.le_of_not_lt fun hlt => ?_) hwaits.le
        have hfailed := hwaits.failed keep (Nat.le_refl _) hlt
        exact misses_of_failed (hm.steady.finalOn _) (by omega) hle hfailed k hfirst.matched
      subst hsame
      exact ih hfirst hfull (by omega) hread hruled
    · rw [aged, hfull, pace_of_le (Nat.le_refl _)] at hnext
      have hcalls := hrest.lt_calls hle
      omega

end Engine

end StreamScan

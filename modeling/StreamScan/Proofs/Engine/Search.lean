import StreamScan.Proofs.Engine.Reading
import StreamScan.Proofs.Matcher.Laws

/-!
# The course of a search

A search holds an excerpt, and all that it does is decided by what its matcher makes of that.
`Matcher.past` is the matcher that is shown a text from a place on only, so the excerpt's places can
be named as places of the text that was read.  A turn of a search reads on and then

* finds the end of the text, and the first match in the excerpt is the answer, or
* **`Settles`** — has a match that nothing can change any more, or
* **`Lingers`** — has a place that has been open for too long, or
* **`Waits`** — drops the places that have failed and goes on.

`Turns` is the search said in this way, turn by turn, and every search takes such a course, whatever
its matcher is (`turns_findNext`).  If the matcher is lawful, then attempts on the excerpt are
attempts on the text, and the course can be said without the excerpt: that is `Seek`
(`seek_findNext`).  Theorems about searches are proved by induction over one of the two.
-/

namespace StreamScan

namespace Engine

/-- How many code points to read when the oldest open place is so many bytes old. -/
def pace (e : Engine) (age : Nat) : Nat :=
  let room := e.window - age
  if room = 0 then e.step else max 1 (min e.step (room / Utf8.maxLength))

theorem pullCount_eq (e : Engine) (x : Excerpt) : e.pullCount x = e.pace (x.age x.keep) := rfl

theorem lt_of_pace (e : Engine) {n n' age : Nat} (h : n' = n + e.pace age) : n < n' := by
  have hpositive : 0 < e.pace age := by
    rw [pace, step]
    split <;> omega
  omega

/-- A turn never reads more than a step. -/
theorem pace_le (e : Engine) (age : Nat) : e.pace age ≤ e.step := by
  rw [pace, step]
  split <;> omega

/-- One turn of a search through a tape. -/
theorem findFrom_tape {e : Engine} {w : List Codepoint} {n n' cut keep : Nat} (hcut : cut ≤ keep)
    (hkeep : keep ≤ n) (hn : n ≤ w.length) (hnext : n' = n + e.pace (aged w n keep)) :
    e.findFrom (.of (w.take n) cut keep) (Tape.after w n) =
      if n' ≤ w.length then
        match e.judge (.of (w.take n') cut keep) with
        | .found location => (.ok (some location), Tape.after w n')
        | .refused failure => (.error failure, Tape.after w n')
        | .undecided rest => e.findFrom rest (Tape.after w n')
      else (.ok (e.conclude (.of w cut keep)), Tape.after w (w.length + 1)) := by
  have hlength : (w.take n).length = n := by rw [List.length_take, Nat.min_eq_left hn]
  have hage : (Excerpt.of (w.take n) cut keep).age (keep - cut) = aged w n keep := by
    rw [Excerpt.age_of hcut (by rw [hlength]; exact hkeep), List.take_take,
      Nat.min_eq_left hkeep]
    rfl
  have hpace : e.pullCount (.of (w.take n) cut keep) = e.pace (aged w n keep) := by
    rw [pullCount_eq, ← hage]
    rfl
  have hpull : (Excerpt.of (w.take n) cut keep).pull (e.pullCount (.of (w.take n) cut keep))
      (Tape.after w n) = if n' ≤ w.length then
        (.ok false, .of (w.take n') cut keep, Tape.after w n')
      else (.ok true, .of w cut keep, Tape.after w (w.length + 1)) := by
    rw [hpace, hnext]
    exact Excerpt.pull_tape (Nat.le_trans hcut hkeep) hn _
  by_cases hmore : n' ≤ w.length
  · rw [if_pos hmore] at hpull ⊢
    cases hjudge : e.judge (.of (w.take n') cut keep) with
    | found location => exact findFrom_found hpull hjudge
    | refused failure => exact findFrom_refused hpull hjudge
    | undecided rest => exact findFrom_undecided hpull hjudge
  · rw [if_neg hmore] at hpull ⊢
    exact findFrom_ended hpull

/-! ## What a turn can come to -/

section
variable (e : Engine) (v : List Codepoint)

/-- In the text that was read, the first match from `keep` on is out of reach of what follows:
    every place before it has failed, it ends before the text does, and a window was read. -/
structure Settles (keep : Nat) (s : Span) : Prop where
  search : e.matcher.search (letters v) keep = some s
  failed : ∀ place, keep ≤ place → place < s.start →
    e.matcher.attempt (letters v) place = .failed
  inside : s.stop < v.length
  old : e.window ≤ width v - width (v.take s.start)

/-- A place of the text that was read is still open behind its limit. -/
structure Lingers (keep place : Nat) : Prop where
  le : keep ≤ place
  lt : place < v.length
  isOpen : (e.matcher.attempt (letters v) place).isOpen = true
  old : e.limit < width v - width (v.take place)

/-- The places before `rest` have failed; the one at `rest` is open and young enough, and if it
    begins a match then that is not settled. -/
structure Waits (keep rest : Nat) : Prop where
  le : keep ≤ rest
  le_length : rest ≤ v.length
  failed : ∀ place, keep ≤ place → place < rest →
    e.matcher.attempt (letters v) place = .failed
  isOpen : rest < v.length → (e.matcher.attempt (letters v) rest).isOpen = true
  young : rest < v.length → width v - width (v.take rest) ≤ e.limit
  pending : ∀ s, e.matcher.search (letters v) keep = some s → s.start = rest →
    s.stop < v.length → width v - width (v.take rest) < e.window

end

/-- A place that has not failed: an attempt there is open, or the search finds its match there. -/
def Live (e : Engine) (v : List Codepoint) (keep place : Nat) : Prop :=
  (e.matcher.attempt (letters v) place).isOpen = true ∨
    ∃ s, e.matcher.search (letters v) keep = some s ∧ s.start = place

/-- If the search finds what the attempts say, the place is open. -/
theorem Live.isOpen {e : Engine} (hm : e.matcher.Searches) {v : List Codepoint} {keep place : Nat}
    (h : e.Live v keep place) : (e.matcher.attempt (letters v) place).isOpen = true := by
  rcases h with hopen | ⟨s, hs, rfl⟩
  · exact hopen
  · rw [(hm.search_some hs).matched]
    rfl

/-- What a verdict on an excerpt says of the text that was read. -/
inductive Judged (e : Engine) (v : List Codepoint) (cut keep : Nat) : Verdict → Prop
  | found {s : Span} (h : e.Settles v keep s) (start : keep ≤ s.start) (span : s.start ≤ s.stop)
    (young : width v - width (v.take s.start) ≤ e.limit) :
    Judged e v cut keep (.found (s.inBytes v))
  | refused {place : Nat} (le : keep ≤ place) (lt : place < v.length) (live : e.Live v keep place)
    (old : e.limit < width v - width (v.take place)) :
    Judged e v cut keep (.refused (.attemptStillOpen (width (v.take place))
      (width v - width (v.take place)) e.limit))
  | undecided {rest : Nat} (le : keep ≤ rest) (le_length : rest ≤ v.length)
    (failed : ∀ place, keep ≤ place → place < rest →
      e.matcher.attempt (letters v) place = .failed)
    (live : rest < v.length → e.Live v keep rest)
    (young : rest < v.length → width v - width (v.take rest) ≤ e.limit)
    (pending : ∀ s, e.matcher.search (letters v) keep = some s → s.start = rest →
      s.stop < v.length → width v - width (v.take rest) < e.window) :
    Judged e v cut keep (.undecided (.of v (max cut (rest - Excerpt.context)) rest))

/-- The first open place among so many, and that the places before it have failed. -/
theorem firstOpen_spec (m : Matcher) (text : Array Char) (places place : Nat) :
    place ≤ firstOpen m text places place ∧ firstOpen m text places place ≤ place + places ∧
      (∀ i, place ≤ i → i < firstOpen m text places place → m.attempt text i = .failed) ∧
      (firstOpen m text places place < place + places →
        (m.attempt text (firstOpen m text places place)).isOpen = true) := by
  induction places generalizing place with
  | zero =>
    refine ⟨Nat.le_refl _, Nat.le_refl _, ?_, ?_⟩
    · intro i hle hlt
      exact absurd hlt (Nat.not_lt.mpr hle)
    · intro hlt
      exact absurd hlt (Nat.lt_irrefl _)
  | succ places ih =>
    rw [firstOpen]
    by_cases hopen : (m.attempt text place).isOpen = true
    · rw [if_pos hopen]
      refine ⟨Nat.le_refl _, Nat.le_add_right _ _, ?_, fun _ => hopen⟩
      intro i hle hlt
      exact absurd hlt (Nat.not_lt.mpr hle)
    · rw [if_neg hopen]
      obtain ⟨hle, hlt, hfailed, hfirst⟩ := ih (place + 1)
      refine ⟨by omega, by omega, ?_, fun h => hfirst (by omega)⟩
      intro i hi hbefore
      by_cases heq : i = place
      · rw [heq, ← Attempt.isOpen_eq_false]
        exact Bool.eq_false_iff.mpr hopen
      · exact hfailed i (by omega) hbefore

/-- The place before which an open one is looked for: the first match, or the end of the text. -/
theorem candidate_spec {m : Matcher} (hm : m.Confined) {text : Array Char} {index : Nat}
    (hindex : index ≤ text.size) :
    index ≤ (m.search text index).elim text.size (·.start) ∧
      (m.search text index).elim text.size (·.start) ≤ text.size := by
  cases hfound : m.search text index with
  | none =>
    rw [Option.elim_none]
    exact ⟨hindex, Nat.le_refl _⟩
  | some s =>
    obtain ⟨hstart, hspan, hend⟩ := hm.search_some hfound
    rw [Option.elim_some]
    exact ⟨hstart, Nat.le_trans hspan hend⟩

variable {e : Engine}

/-! ## What an excerpt shows -/

/-- The engine whose matcher is shown a text from some place on only. -/
def past (e : Engine) (cut : Nat) : Engine := ⟨e.matcher.past cut, e.window⟩

section
variable {v : List Codepoint} {cut keep : Nat}

/-- An attempt on an excerpt, said of the text. -/
theorem attempt_excerpt {place : Nat} (hplace : cut ≤ place) :
    (e.past cut).matcher.attempt (letters v) place =
      (e.matcher.attempt (letters (v.drop cut)) (place - cut)).shifted cut := by
  rw [letters_drop]
  exact Matcher.attempt_past hplace

/-- A search in an excerpt, said of the text. -/
theorem search_excerpt (hcut : cut ≤ v.length) (index : Nat) :
    (e.past cut).matcher.search (letters v) index =
      (e.matcher.search (letters (v.drop cut)) (index - cut)).map
        fun s => ⟨s.start + cut, s.stop + cut⟩ := by
  rw [letters_drop]
  exact Matcher.search_past (by rw [size_letters]; exact hcut)

/-- The oldest place of an excerpt that has not failed. -/
theorem oldest_spec (hm : e.matcher.Confined) (hcut : cut ≤ keep) (hkeep : keep ≤ v.length) :
    ∃ rest, firstOpen e.matcher (letters (v.drop cut))
        (((e.matcher.search (letters (v.drop cut)) (keep - cut)).elim
          (letters (v.drop cut)).size (·.start)) - (keep - cut)) (keep - cut) = rest - cut ∧
      keep ≤ rest ∧ rest ≤ v.length ∧
      (∀ place, keep ≤ place → place < rest →
        (e.past cut).matcher.attempt (letters v) place = .failed) ∧
      (rest < v.length → (e.past cut).Live v keep rest) := by
  have hsize : (letters (v.drop cut)).size = v.length - cut := by
    rw [size_letters, List.length_drop]
  have hinside : keep - cut ≤ (letters (v.drop cut)).size := by omega
  have hsearch := search_excerpt (e := e) (Nat.le_trans hcut hkeep) keep
  obtain ⟨hfrom, hto⟩ := candidate_spec hm hinside
  generalize hcandidate : (e.matcher.search (letters (v.drop cut)) (keep - cut)).elim
    (letters (v.drop cut)).size (·.start) = candidate at hfrom hto ⊢
  obtain ⟨hfirst, hbound, hfailed, hopen⟩ := firstOpen_spec e.matcher (letters (v.drop cut))
    (candidate - (keep - cut)) (keep - cut)
  generalize firstOpen e.matcher (letters (v.drop cut)) (candidate - (keep - cut)) (keep - cut) =
    oldest at hfirst hbound hfailed hopen ⊢
  refine ⟨oldest + cut, by omega, by omega, by omega, ?_, ?_⟩
  · intro place hplace hlt
    rw [attempt_excerpt (by omega), Attempt.shifted_eq_failed]
    exact hfailed _ (by omega) (by omega)
  · intro hlt
    by_cases hbefore : oldest < candidate
    · refine Or.inl ?_
      rw [attempt_excerpt (Nat.le_add_left cut oldest), Attempt.isOpen_shifted, Nat.add_sub_cancel]
      exact hopen (by omega)
    · -- no place before the candidate is open, and it is not the end of the text
      cases hfound : e.matcher.search (letters (v.drop cut)) (keep - cut) with
      | none =>
        rw [hfound, Option.elim_none] at hcandidate
        omega
      | some s =>
        rw [hfound, Option.elim_some] at hcandidate
        rw [hfound, Option.map_some] at hsearch
        refine Or.inr ⟨_, hsearch, ?_⟩
        show s.start + cut = oldest + cut
        omega

/-- When a match in an excerpt is reported: it begins at the oldest open place, ends before the text
    does, and is a window old. -/
theorem reported_iff (first : Nat) {rest : Nat} {s : Span} (hrest : cut ≤ rest)
    (hend : s.start ≤ v.length - cut) (hcut : cut ≤ v.length) :
    (decide (rest - cut = s.start) && decide (s.stop < v.length - cut) &&
        decide (e.window ≤ (Excerpt.of v cut first).age s.start)) = true ↔
      rest = s.start + cut ∧ s.stop + cut < v.length ∧
        e.window ≤ width v - width (v.take (s.start + cut)) := by
  have hage : (Excerpt.of v cut first).age s.start =
      width v - width (v.take (s.start + cut)) := by
    rw [← Excerpt.age_of (Nat.le_add_left cut s.start) (by omega), Nat.add_sub_cancel]
  simp only [Bool.and_eq_true, decide_eq_true_eq, hage]
  omega

/-- The verdict on an excerpt. -/
theorem judged_judge (hm : e.matcher.Confined) (hcut : cut ≤ keep) (hkeep : keep ≤ v.length) :
    Judged (e.past cut) v cut keep (e.judge (.of v cut keep)) := by
  have hsize : (letters (v.drop cut)).size = v.length - cut := by
    rw [size_letters, List.length_drop]
  obtain ⟨rest, holdest, hfrom, hto, hfailed, hlive⟩ := oldest_spec hm hcut hkeep
  have hcutrest := Nat.le_trans hcut hfrom
  have hchars : (Excerpt.of v cut keep).chars = letters (v.drop cut) := rfl
  have hplace : (Excerpt.of v cut keep).keep = keep - cut := rfl
  have hoffset : (Excerpt.of v cut keep).offset (rest - cut) = width (v.take rest) :=
    Excerpt.offset_of hcutrest hto
  have hage : (Excerpt.of v cut keep).age (rest - cut) = width v - width (v.take rest) :=
    Excerpt.age_of hcutrest hto
  have hdiscard : (Excerpt.of v cut keep).discard (rest - cut) =
      .of v (max cut (rest - Excerpt.context)) rest := Excerpt.discard_of hcutrest hto
  have hsearch := search_excerpt (e := e) (Nat.le_trans hcut hkeep) keep
  -- the verdict, with every part of it said of the text
  simp only [judge, hchars, hplace, holdest, hoffset, hage, hdiscard]
  by_cases hrefused : (decide (rest - cut < (letters (v.drop cut)).size) &&
      decide (e.limit < width v - width (v.take rest))) = true
  · rw [if_pos hrefused]
    simp only [Bool.and_eq_true, decide_eq_true_eq, hsize] at hrefused
    have hlt : rest < v.length := by omega
    exact .refused hfrom hlt (hlive hlt) hrefused.2
  · rw [if_neg hrefused]
    simp only [Bool.and_eq_true, decide_eq_true_eq, hsize, not_and, Nat.not_lt] at hrefused
    have hyoung : rest < v.length → width v - width (v.take rest) ≤ e.limit :=
      fun hlt => hrefused (by omega)
    cases hfound : e.matcher.search (letters (v.drop cut)) (keep - cut) with
    | none =>
      rw [hfound, Option.map_none] at hsearch
      refine .undecided hfrom hto hfailed hlive hyoung ?_
      intro s hs
      rw [hsearch] at hs
      exact nomatch hs
    | some s =>
      rw [hfound, Option.map_some] at hsearch
      obtain ⟨hstart, hspan, hend⟩ := hm.search_some hfound
      rw [hsize] at hend
      have hreported := reported_iff (e := e) keep hcutrest (Nat.le_trans hspan hend)
        (Nat.le_trans hcut hkeep)
      rw [Option.elim_some]
      simp only [hsize]
      by_cases hfinal : rest = s.start + cut ∧ s.stop + cut < v.length ∧
          e.window ≤ width v - width (v.take (s.start + cut))
      · rw [if_pos (hreported.mpr hfinal)]
        obtain ⟨rfl, hstop, hold⟩ := hfinal
        rw [Excerpt.located_of (by omega) (by omega)]
        exact .found ⟨hsearch, hfailed, hstop, hold⟩ hfrom (Nat.add_le_add_right hspan cut)
          (hyoung (by omega))
      · rw [if_neg (mt hreported.mp hfinal)]
        refine .undecided hfrom hto hfailed hlive hyoung ?_
        intro t ht hrest hstop
        rw [hsearch] at ht
        obtain rfl := Option.some.inj ht
        have hrest' : s.start + cut = rest := hrest
        have hstop' : s.stop + cut < v.length := hstop
        by_cases hold : e.window ≤ width v - width (v.take rest)
        · rw [← hrest'] at hold
          exact absurd ⟨hrest'.symm, hstop', hold⟩ hfinal
        · exact Nat.lt_of_not_le hold

/-- What is said at the end of the text. -/
theorem conclude_of (hm : e.matcher.Confined) (hcut : cut ≤ keep) (hkeep : keep ≤ v.length) :
    e.conclude (.of v cut keep) =
      ((e.past cut).matcher.search (letters v) keep).map (Span.inBytes v) := by
  show (e.matcher.search (letters (v.drop cut)) (keep - cut)).map _ = _
  rw [search_excerpt (Nat.le_trans hcut hkeep) keep, Option.map_map]
  cases hfound : e.matcher.search (letters (v.drop cut)) (keep - cut) with
  | none => rfl
  | some s =>
    obtain ⟨hstart, hspan, hend⟩ := hm.search_some hfound
    rw [size_letters, List.length_drop] at hend
    rw [Option.map_some, Option.map_some, Excerpt.located_of (by omega) (by omega)]
    rfl

/-- A match that is reported at the end of the text is a stretch of it, from the oldest place on. -/
theorem conclude_bounds (hm : e.matcher.Confined) (hcut : cut ≤ keep) (hkeep : keep ≤ v.length)
    {location : Span} (h : e.conclude (.of v cut keep) = some location) :
    ∃ t : Span, keep ≤ t.start ∧ t.start ≤ t.stop ∧ t.stop ≤ v.length ∧
      location = t.inBytes v := by
  rw [conclude_of hm hcut hkeep] at h
  obtain ⟨t, ht, rfl⟩ := Option.map_eq_some_iff.mp h
  obtain ⟨hstart, hspan, hend⟩ := (hm.past cut).search_some ht
  rw [size_letters] at hend
  exact ⟨t, hstart, hspan, hend, rfl⟩

/-- What a turn answers with is a stretch of what is held then, not before the oldest place. -/
theorem answer_span (hm : e.matcher.Confined) (hcut : cut ≤ keep) (hkeep : keep ≤ v.length)
    {location : Span} (h : e.conclude (.of v cut keep) = some location ∨
      e.judge (.of v cut keep) = .found location) :
    ∃ t : Span, keep ≤ t.start ∧ t.start ≤ t.stop ∧ t.stop ≤ v.length ∧
      location = t.inBytes v := by
  rcases h with hconclude | hjudge
  · exact conclude_bounds hm hcut hkeep hconclude
  · have hjudged := judged_judge hm hcut hkeep
    rw [hjudge] at hjudged
    cases hjudged with
    | @found t hsettles start order _ =>
      exact ⟨t, start, order, Nat.le_of_lt hsettles.inside, rfl⟩

end

/-! ## The turns of a search -/

/-- The search through a text `w`, of which `n` code points have been read, the excerpt begins at
    `cut` and nothing before `keep` is tried any more: its answer, and how often the reader is
    called in all. -/
inductive Turns (e : Engine) (w : List Codepoint) :
    Nat → Nat → Nat → Except Failure (Option Span) → Nat → Prop
  | ended {n cut keep : Nat} (h : w.length < n + e.pace (aged w n keep)) :
    Turns e w n cut keep
      (.ok (((e.past cut).matcher.search (letters w) keep).map (Span.inBytes w))) (w.length + 1)
  | found {n cut keep n' : Nat} {s : Span} (hn : n' = n + e.pace (aged w n keep))
    (hle : n' ≤ w.length) (h : (e.past cut).Settles (w.take n') keep s)
    (hyoung : aged w n' s.start ≤ e.limit) : Turns e w n cut keep (.ok (some (s.inBytes w))) n'
  | refused {n cut keep n' place : Nat} (hn : n' = n + e.pace (aged w n keep))
    (hle : n' ≤ w.length) (h : (e.past cut).Lingers (w.take n') keep place) :
    Turns e w n cut keep
      (.error (.attemptStillOpen (width (w.take place)) (aged w n' place) e.limit)) n'
  | again {n cut keep n' rest calls : Nat} {answer : Except Failure (Option Span)}
    (hn : n' = n + e.pace (aged w n keep)) (hle : n' ≤ w.length)
    (h : (e.past cut).Waits (w.take n') keep rest)
    (hrest : Turns e w n' (max cut (rest - Excerpt.context)) rest answer calls) :
    Turns e w n cut keep answer calls

section
variable {w : List Codepoint} {n cut keep : Nat}

/-- A match that settles is a stretch of what was read, and begins where a match was looked for. -/
theorem Settles.bounds (hm : e.matcher.Searches) {v : List Codepoint} {s : Span}
    (h : e.Settles v keep s) : keep ≤ s.start ∧ s.start ≤ s.stop ∧ s.stop < v.length := by
  obtain ⟨hkeep, hend, hmatched, -⟩ := hm.search_some h.search
  exact ⟨hkeep, (hm.bounds hend hmatched).1, h.inside⟩

/-- A search through the excerpt of what was read takes such turns. -/
theorem turns_findFrom (hm : e.matcher.Searches) (hcut : cut ≤ keep) (hkeep : keep ≤ n)
    (hn : n ≤ w.length) :
    ∃ calls, Turns e w n cut keep (e.findFrom (.of (w.take n) cut keep) (Tape.after w n)).1 calls ∧
      (e.findFrom (.of (w.take n) cut keep) (Tape.after w n)).2 = Tape.after w calls := by
  -- each turn reads on, so the induction is on what is left of the text
  induction hleft : w.length - n using Nat.strongRecOn generalizing n cut keep with
  | ind left ih =>
    obtain ⟨n', hnext⟩ : ∃ n', n' = n + e.pace (aged w n keep) := ⟨_, rfl⟩
    have hlater := e.lt_of_pace hnext
    rw [findFrom_tape hcut hkeep hn hnext]
    by_cases hmore : n' ≤ w.length
    · rw [if_pos hmore]
      have hlength : (w.take n').length = n' := by rw [List.length_take, Nat.min_eq_left hmore]
      have hjudged := judged_judge (v := w.take n') hm.confined hcut (by rw [hlength]; omega)
      generalize e.judge (.of (w.take n') cut keep) = verdict at hjudged
      cases hjudged with
      | found h hstart hspan hyoung =>
        rename_i s
        have hinside := h.inside
        rw [hlength] at hinside
        rw [List.take_take, Nat.min_eq_left (by omega)] at hyoung
        rw [Span.inBytes_take (by omega) (by omega)]
        exact ⟨n', .found hnext hmore h hyoung, rfl⟩
      | refused hfrom hlt hlive hold =>
        rename_i place
        have hlingers : (e.past cut).Lingers (w.take n') keep place :=
          ⟨hfrom, hlt, hlive.isOpen (hm.past cut), hold⟩
        rw [hlength] at hlt
        have htake : (w.take n').take place = w.take place := by
          rw [List.take_take, Nat.min_eq_left (Nat.le_of_lt hlt)]
        rw [htake]
        exact ⟨n', .refused hnext hmore hlingers, rfl⟩
      | undecided hfrom hend hfailed hlive hyoung hpending =>
        rename_i rest
        have h : (e.past cut).Waits (w.take n') keep rest :=
          ⟨hfrom, hend, hfailed, fun hlt => (hlive hlt).isOpen (hm.past cut), hyoung, hpending⟩
        rw [hlength] at hend
        obtain ⟨calls, hturns, htape⟩ :
            ∃ calls, Turns e w n' (max cut (rest - Excerpt.context)) rest
              (e.findFrom (.of (w.take n') (max cut (rest - Excerpt.context)) rest)
                (Tape.after w n')).1 calls ∧ _ = Tape.after w calls :=
          ih (w.length - n') (by omega) (by omega) hend hmore rfl
        exact ⟨calls, .again hnext hmore h hturns, htape⟩
    · rw [if_neg hmore, conclude_of hm.confined hcut (Nat.le_trans hkeep hn)]
      exact ⟨w.length + 1, .ended (by omega), rfl⟩

/-- Every search takes such turns, from the start of the text. -/
theorem turns_findNext (hm : e.matcher.Searches) (w : List Codepoint) :
    ∃ calls, Turns e w 0 0 0 (e.findNext (Tape.after w 0)).1 calls ∧
      (e.findNext (Tape.after w 0)).2 = Tape.after w calls :=
  turns_findFrom hm (Nat.le_refl 0) (Nat.le_refl 0) (Nat.zero_le _)

/-- A search reads on, and a location that it answers with is a stretch of what was read. -/
theorem Turns.bounds (hm : e.matcher.Searches) {answer : Except Failure (Option Span)}
    {calls : Nat} (h : Turns e w n cut keep answer calls) (hkeep : keep ≤ n) (hn : n ≤ w.length) :
    n < calls ∧ ∀ location, answer = .ok (some location) →
      ∃ t : Span, keep ≤ t.start ∧ t.start ≤ t.stop ∧ t.stop ≤ w.length ∧ t.stop ≤ calls ∧
        location = t.inBytes w := by
  induction h with
  | ended hend =>
    rename_i n cut keep
    refine ⟨Nat.lt_succ_of_le hn, fun location hanswer => ?_⟩
    obtain ⟨s, hs, rfl⟩ := Option.map_eq_some_iff.mp (Except.ok.inj hanswer)
    obtain ⟨hfrom, hend, hmatched, -⟩ := (hm.past cut).search_some hs
    obtain ⟨hspan, hinside⟩ := (hm.past cut).bounds hend hmatched
    rw [size_letters] at hinside
    exact ⟨s, hfrom, hspan, hinside, Nat.le_succ_of_le hinside, rfl⟩
  | found hnext hle hsettles hyoung =>
    rename_i n cut keep n' s
    refine ⟨e.lt_of_pace hnext, fun location hanswer => ?_⟩
    obtain rfl := Option.some.inj (Except.ok.inj hanswer)
    obtain ⟨hfrom, hspan, hinside⟩ := hsettles.bounds (hm.past cut)
    rw [List.length_take, Nat.min_eq_left hle] at hinside
    exact ⟨s, hfrom, hspan, by omega, Nat.le_of_lt hinside, rfl⟩
  | refused hnext _ _ => exact ⟨e.lt_of_pace hnext, fun _ hanswer => nomatch hanswer⟩
  | again hnext hle hwaits _ ih =>
    have hlater := e.lt_of_pace hnext
    have hfrom := hwaits.le
    have hend := hwaits.le_length
    rw [List.length_take, Nat.min_eq_left hle] at hend
    obtain ⟨hcalls, hanswer⟩ := ih hend hle
    refine ⟨Nat.lt_trans hlater hcalls, fun location h => ?_⟩
    obtain ⟨t, hstart, hrest⟩ := hanswer location h
    exact ⟨t, Nat.le_trans hfrom hstart, hrest⟩

/-- A search that is refused has a place that was open for too long. -/
theorem Turns.kind_of_error {answer : Except Failure (Option Span)} {calls : Nat}
    (h : Turns e w n cut keep answer calls) {failure : Failure}
    (hanswer : answer = .error failure) : failure.kind = .outOfWindow := by
  induction h with
  | ended _ => exact nomatch hanswer
  | found _ _ _ _ => exact nomatch hanswer
  | refused _ _ _ =>
    obtain rfl := Except.error.inj hanswer
    rfl
  | again _ _ _ _ ih => exact ih hanswer

end

/-! ## The course of a lawful search -/

section
variable {v : List Codepoint} {cut keep : Nat}

/-- The cut of an excerpt leaves what attempts from `keep` on may look at. -/
def Leaves (cut keep : Nat) : Prop := cut = 0 ∨ cut + Excerpt.context ≤ keep

theorem Leaves.mono (h : Leaves cut keep) {place : Nat} (hle : keep ≤ place) :
    Leaves cut place := by
  rcases h with rfl | h
  · exact .inl rfl
  · exact .inr (Nat.le_trans h hle)

theorem Leaves.discard (h : Leaves cut keep) {rest : Nat} (hle : keep ≤ rest) :
    Leaves (max cut (rest - Excerpt.context)) rest := by
  rcases h with rfl | h <;> simp only [Leaves] <;> omega

/-- An attempt on the excerpt is one on the text. -/
theorem attempt_of (hm : e.matcher.Near Excerpt.context) (hcut : Leaves cut keep) {place : Nat}
    (hkeep : keep ≤ place) (hplace : place ≤ v.length) :
    (e.past cut).matcher.attempt (letters v) place = e.matcher.attempt (letters v) place :=
  hm.attempt_past (hcut.mono hkeep) (by rw [size_letters]; exact hplace)

/-- A search in the excerpt is one in the text. -/
theorem search_of (hm : e.matcher.Near Excerpt.context) (hcut : Leaves cut keep) :
    (e.past cut).matcher.search (letters v) keep = e.matcher.search (letters v) keep :=
  hm.search_past hcut

/-- A match that settles in the excerpt does so in the text. -/
theorem Settles.of_past (hm : e.matcher.Near Excerpt.context) (hcut : Leaves cut keep) {s : Span}
    (h : (e.past cut).Settles v keep s) : e.Settles v keep s where
  search := (search_of hm hcut).symm.trans h.search
  failed place hkeep hlt := by
    obtain ⟨-, hspan, hinside⟩ := h.bounds (hm.toSearches.past cut)
    rw [← attempt_of hm hcut hkeep (by omega)]
    exact h.failed place hkeep hlt
  inside := h.inside
  old := h.old

theorem Lingers.of_past (hm : e.matcher.Near Excerpt.context) (hcut : Leaves cut keep)
    {place : Nat} (h : (e.past cut).Lingers v keep place) : e.Lingers v keep place where
  le := h.le
  lt := h.lt
  isOpen := by
    rw [← attempt_of hm hcut h.le (Nat.le_of_lt h.lt)]
    exact h.isOpen
  old := h.old

theorem Waits.of_past (hm : e.matcher.Near Excerpt.context) (hcut : Leaves cut keep) {rest : Nat}
    (h : (e.past cut).Waits v keep rest) : e.Waits v keep rest where
  le := h.le
  le_length := h.le_length
  failed place hkeep hlt := by
    rw [← attempt_of hm hcut hkeep (Nat.le_trans (Nat.le_of_lt hlt) h.le_length)]
    exact h.failed place hkeep hlt
  isOpen hlt := by
    rw [← attempt_of hm hcut h.le h.le_length]
    exact h.isOpen hlt
  young := h.young
  pending s hs := h.pending s ((search_of hm hcut).trans hs)

end

/-- The search through a text `w`, of which `n` code points have been read and nothing before
    `keep` can begin a match: its answer, and how often the reader is called in all. -/
inductive Seek (e : Engine) (w : List Codepoint) :
    Nat → Nat → Except Failure (Option Span) → Nat → Prop
  | ended {n keep : Nat} (h : w.length < n + e.pace (aged w n keep)) :
    Seek e w n keep (.ok ((e.matcher.search (letters w) keep).map (Span.inBytes w))) (w.length + 1)
  | found {n keep n' : Nat} {s : Span} (hn : n' = n + e.pace (aged w n keep)) (hle : n' ≤ w.length)
    (h : e.Settles (w.take n') keep s) :
    Seek e w n keep (.ok (some (s.inBytes w))) n'
  | refused {n keep n' place : Nat} (hn : n' = n + e.pace (aged w n keep)) (hle : n' ≤ w.length)
    (h : e.Lingers (w.take n') keep place) :
    Seek e w n keep (.error (.attemptStillOpen (width (w.take place)) (aged w n' place) e.limit)) n'
  | again {n keep n' rest calls : Nat} {answer : Except Failure (Option Span)}
    (hn : n' = n + e.pace (aged w n keep)) (hle : n' ≤ w.length)
    (h : e.Waits (w.take n') keep rest) (hrest : Seek e w n' rest answer calls) :
    Seek e w n keep answer calls

/-- The turns of a search, said of the text. -/
theorem Turns.seek (hm : e.matcher.Near Excerpt.context) {w : List Codepoint}
    {n cut keep calls : Nat} {answer : Except Failure (Option Span)}
    (h : Turns e w n cut keep answer calls) (hcut : Leaves cut keep) :
    Seek e w n keep answer calls := by
  induction h with
  | ended hend =>
    rw [search_of hm hcut]
    exact .ended hend
  | found hnext hle hsettles _ => exact .found hnext hle (hsettles.of_past hm hcut)
  | refused hnext hle hlingers => exact .refused hnext hle (hlingers.of_past hm hcut)
  | again hnext hle hwaits _ ih =>
    exact .again hnext hle (hwaits.of_past hm hcut) (ih (hcut.discard hwaits.le))

/-- Every search takes such a course, from the start of the text. -/
theorem seek_findNext (hm : e.matcher.Lawful Excerpt.context) (w : List Codepoint) :
    ∃ calls, Seek e w 0 0 (e.findNext (Tape.after w 0)).1 calls ∧
      (e.findNext (Tape.after w 0)).2 = Tape.after w calls := by
  obtain ⟨calls, hturns, htape⟩ := turns_findNext hm.toSearches w
  exact ⟨calls, hturns.seek hm.near (.inl rfl), htape⟩

end Engine

end StreamScan

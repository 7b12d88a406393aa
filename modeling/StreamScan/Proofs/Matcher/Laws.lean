import StreamScan.Matcher
import StreamScan.Pattern

/-!
# What a scan relies on in a matcher

A scan sees its text grow, and it drops the front of it.  What it may conclude from an attempt on
part of the text depends on laws that a matcher can keep or break; nothing in the scan checks them.

* **`Matcher.Searches`** — a search finds the first place where an attempt succeeds.  Every
  compiled pattern keeps this law (`Pattern.searches`).
* **`Matcher.Confined`** — a search names a stretch of the text.  Where nothing but the bookkeeping
  of a search is at stake, this law is enough.
* **`Matcher.Lawful`** — besides, failures are final, a match that ends before the end of the text
  can only give way to one that uses what follows, and no more than a few characters before a place
  have a say in the attempt there.  Conditions on the text behind a match break the second law.
* **`Matcher.Near`**, **`Matcher.Steady`** — the law on the characters before a place alone, and
  with it the one on failures.  `Matcher.FinalOn` says the latter of one text.
* **`Matcher.past`** — the matcher that sees a text from some place on, as a search does that has
  dropped the front.
* **`Matcher.literal`** — a matcher for one word.  It keeps all laws without any context
  (`lawful_literal`).
-/

namespace StreamScan

/-- The same attempt, seen in a text that has so many characters more in front. -/
def Attempt.shifted (cut : Nat) : Attempt → Attempt
  | .matched stop => .matched (stop + cut)
  | other => other

theorem Attempt.isOpen_shifted (cut : Nat) (a : Attempt) : (a.shifted cut).isOpen = a.isOpen := by
  cases a <;> rfl

theorem Attempt.shifted_eq_failed {cut : Nat} {a : Attempt} :
    a.shifted cut = .failed ↔ a = .failed := by
  cases a <;> simp [Attempt.shifted]

theorem Attempt.isOpen_eq_false {a : Attempt} : a.isOpen = false ↔ a = .failed := by
  cases a <;> simp [Attempt.isOpen]

namespace Matcher

/-- A place of a text at which no attempt succeeds. -/
def Misses (m : Matcher) (text : Array Char) (place : Nat) : Prop :=
  ∀ stop, m.attempt text place ≠ .matched stop

/-- The leftmost match that begins at an index or after it.  The end of the text is a place, too. -/
structure Leftmost (m : Matcher) (text : Array Char) (index : Nat) (s : Span) : Prop where
  index_le : index ≤ s.start
  start_le : s.start ≤ text.size
  matched : m.attempt text s.start = .matched s.stop
  first : ∀ place, index ≤ place → place < s.start → m.Misses text place

/-- A search finds the leftmost match. -/
structure Searches (m : Matcher) : Prop where
  search_some {text : Array Char} {index : Nat} {s : Span} (h : m.search text index = some s) :
    m.Leftmost text index s
  search_none {text : Array Char} {index : Nat} (h : m.search text index = none) {place : Nat}
    (hindex : index ≤ place) (hplace : place ≤ text.size) : m.Misses text place
  bounds {text : Array Char} {place stop : Nat} (hplace : place ≤ text.size)
    (h : m.attempt text place = .matched stop) : place ≤ stop ∧ stop ≤ text.size

/-- All that is asked of a search so that the places in an excerpt can be kept track of: what it
    names is a stretch of the text, not before the index. -/
structure Confined (m : Matcher) : Prop where
  search_some {text : Array Char} {index : Nat} {s : Span} (h : m.search text index = some s) :
    index ≤ s.start ∧ s.start ≤ s.stop ∧ s.stop ≤ text.size

theorem Searches.confined {m : Matcher} (hm : m.Searches) : m.Confined where
  search_some h := by
    obtain ⟨hstart, hend, hmatched, -⟩ := hm.search_some h
    exact ⟨hstart, hm.bounds hend hmatched⟩

/-- The laws under which the search through a growing text is exact.  The parameter is how many
    characters before a place an attempt there may look at. -/
structure Lawful (m : Matcher) (context : Nat) : Prop extends m.Searches where
  failed {text : Array Char} {place : Nat} (hplace : place ≤ text.size)
    (h : m.attempt text place = .failed) (more : Array Char) : m.Misses (text ++ more) place
  settled {text : Array Char} {place stop : Nat} (h : m.attempt text place = .matched stop)
    (hstop : stop < text.size) (more : Array Char) :
    m.attempt (text ++ more) place = .matched stop ∨
      ∃ later, text.size < later ∧ m.attempt (text ++ more) place = .matched later
  context_le {text : Array Char} {cut place : Nat} (hcut : cut + context ≤ place)
    (hplace : place ≤ text.size) :
    m.attempt text place = (m.attempt (text.extract cut) (place - cut)).shifted cut

/-- The law on what lies before a place alone. -/
structure Near (m : Matcher) (context : Nat) : Prop extends m.Searches where
  context_le {text : Array Char} {cut place : Nat} (hcut : cut + context ≤ place)
    (hplace : place ≤ text.size) :
    m.attempt text place = (m.attempt (text.extract cut) (place - cut)).shifted cut

/-- Besides, failures are final.  A match that was made may be lost when the text grows. -/
structure Steady (m : Matcher) (context : Nat) : Prop extends m.Near context where
  failed {text : Array Char} {place : Nat} (hplace : place < text.size)
    (h : m.attempt text place = .failed) (more : Array Char) : m.Misses (text ++ more) place

/-- In one text failures are final: a place that fails while the text is read begins no match in it.
    -/
def FinalOn (m : Matcher) (text : Array Char) : Prop :=
  ∀ ⦃front place : Nat⦄, place < front → front ≤ text.size →
    m.attempt (text.extract 0 front) place = .failed → m.Misses text place

variable {m : Matcher}

theorem Lawful.near {context : Nat} (h : m.Lawful context) : m.Near context :=
  ⟨h.toSearches, h.context_le⟩

theorem Lawful.steady {context : Nat} (h : m.Lawful context) : m.Steady context where
  toNear := h.near
  failed hplace := h.failed (Nat.le_of_lt hplace)

/-- A matcher that looks at fewer characters before a place may look at more of them. -/
theorem Near.mono {context wider : Nat} (h : m.Near context) (hle : context ≤ wider) :
    m.Near wider where
  toSearches := h.toSearches
  context_le hcut := h.context_le (by omega)

theorem Steady.finalOn {context : Nat} (h : m.Steady context) (text : Array Char) :
    m.FinalOn text := by
  intro front place hplace hfront hfailed
  have hsize : place < (text.extract 0 front).size := by
    rw [Array.size_extract]
    omega
  have hmisses := h.failed hsize hfailed (text.extract front)
  rw [Array.extract_append_extract, Nat.min_eq_left (Nat.zero_le _),
    Nat.max_eq_right hfront, Array.extract_size] at hmisses
  exact hmisses

/-- A matcher that looks at fewer characters before a place keeps the laws for more of them. -/
theorem Lawful.mono {context wider : Nat} (h : m.Lawful context) (hle : context ≤ wider) :
    m.Lawful wider where
  toSearches := h.toSearches
  failed := h.failed
  settled := h.settled
  context_le hcut := h.context_le (by omega)

/-! ## Searching -/

section
variable {text : Array Char} {index : Nat}

/-- There is one leftmost match at most. -/
theorem Leftmost.unique {s t : Span} (hs : m.Leftmost text index s) (ht : m.Leftmost text index t) :
    s = t := by
  have hle : t.start ≤ s.start := Nat.le_of_not_lt fun hlt =>
    ht.first s.start hs.index_le hlt _ hs.matched
  have hge : s.start ≤ t.start := Nat.le_of_not_lt fun hlt =>
    hs.first t.start ht.index_le hlt _ ht.matched
  have hstart : s.start = t.start := Nat.le_antisymm hge hle
  have hstop : s.stop = t.stop := by
    have hmatched := ht.matched
    rw [← hstart, hs.matched] at hmatched
    exact Attempt.matched.inj hmatched
  cases s
  cases t
  rw [Span.mk.injEq]
  exact ⟨hstart, hstop⟩

/-- The leftmost match is what a search finds. -/
theorem Searches.search_eq_some (h : m.Searches) {s : Span} (hs : m.Leftmost text index s) :
    m.search text index = some s := by
  cases hfound : m.search text index with
  | none => exact absurd hs.matched (h.search_none hfound hs.index_le hs.start_le _)
  | some t => rw [(h.search_some hfound).unique hs]

theorem Searches.search_eq_none (h : m.Searches)
    (hmisses : ∀ place, index ≤ place → place ≤ text.size → m.Misses text place) :
    m.search text index = none := by
  cases hfound : m.search text index with
  | none => rfl
  | some s =>
    obtain ⟨hindex, hstart, hmatched, -⟩ := h.search_some hfound
    exact absurd hmatched (hmisses s.start hindex hstart _)

/-- A search from a later index finds the same when there is nothing in between. -/
theorem Searches.search_from (h : m.Searches) {earlier : Nat} (hle : earlier ≤ index)
    (hmisses : ∀ place, earlier ≤ place → place < index → m.Misses text place) :
    m.search text earlier = m.search text index := by
  cases hfound : m.search text index with
  | none =>
    refine h.search_eq_none fun place hplace hend => ?_
    by_cases hbefore : place < index
    · exact hmisses place hplace hbefore
    · exact h.search_none hfound (Nat.le_of_not_lt hbefore) hend
  | some s =>
    obtain ⟨hindex, hstart, hmatched, hfirst⟩ := h.search_some hfound
    refine h.search_eq_some ⟨Nat.le_trans hle hindex, hstart, hmatched, fun place hplace hlt => ?_⟩
    by_cases hbefore : place < index
    · exact hmisses place hplace hbefore
    · exact hfirst place (Nat.le_of_not_lt hbefore) hlt

/-- Matchers that attempt alike from an index on find the same there. -/
theorem Searches.search_congr {m' : Matcher} (h : m.Searches) (h' : m'.Searches)
    (hattempt : ∀ place, index ≤ place → place ≤ text.size →
      m.attempt text place = m'.attempt text place) :
    m.search text index = m'.search text index := by
  cases hfound : m'.search text index with
  | none =>
    refine h.search_eq_none fun place hplace hend stop hmatched => ?_
    rw [hattempt place hplace hend] at hmatched
    exact h'.search_none hfound hplace hend stop hmatched
  | some s =>
    obtain ⟨hindex, hstart, hmatched, hfirst⟩ := h'.search_some hfound
    refine h.search_eq_some ⟨hindex, hstart, ?_, fun place hplace hlt stop hother => ?_⟩
    · rw [hattempt s.start hindex hstart]
      exact hmatched
    · rw [hattempt place hplace (Nat.le_trans (Nat.le_of_lt hlt) hstart)] at hother
      exact hfirst place hplace hlt stop hother

end

/-! ## Texts without their front -/

/-- The matcher that is shown a text only from some place on, and says what it says of the text. -/
def past (m : Matcher) (cut : Nat) : Matcher where
  search text index :=
    if text.size < cut then none
    else (m.search (text.extract cut) (index - cut)).map fun s => ⟨s.start + cut, s.stop + cut⟩
  attempt text place :=
    if place < cut then .failed else (m.attempt (text.extract cut) (place - cut)).shifted cut

section
variable {text : Array Char} {cut index place : Nat}

theorem attempt_past (h : cut ≤ place) :
    (m.past cut).attempt text place =
      (m.attempt (text.extract cut) (place - cut)).shifted cut :=
  if_neg (Nat.not_lt.mpr h)

theorem search_past (h : cut ≤ text.size) :
    (m.past cut).search text index =
      (m.search (text.extract cut) (index - cut)).map fun s => ⟨s.start + cut, s.stop + cut⟩ :=
  if_neg (Nat.not_lt.mpr h)

theorem attempt_past_eq_matched {stop : Nat} :
    (m.past cut).attempt text place = .matched stop ↔ cut ≤ place ∧
      ∃ stop', m.attempt (text.extract cut) (place - cut) = .matched stop' ∧
        stop' + cut = stop := by
  by_cases hbefore : place < cut
  · have hfailed : (m.past cut).attempt text place = .failed := if_pos hbefore
    rw [hfailed]
    constructor
    · intro h
      exact nomatch h
    · rintro ⟨hle, -⟩
      omega
  · rw [attempt_past (Nat.le_of_not_lt hbefore), and_iff_right (Nat.le_of_not_lt hbefore)]
    cases m.attempt (text.extract cut) (place - cut) <;> simp [Attempt.shifted]

/-- What is named past a place is a stretch of the whole text. -/
theorem Confined.past (h : m.Confined) (cut : Nat) : (m.past cut).Confined where
  search_some {text index s} hs := by
    by_cases hcut : text.size < cut
    · have hnone : (m.past cut).search text index = none := if_pos hcut
      rw [hnone] at hs
      exact nomatch hs
    · rw [search_past (Nat.le_of_not_lt hcut)] at hs
      obtain ⟨t, ht, rfl⟩ := Option.map_eq_some_iff.mp hs
      obtain ⟨hstart, hspan, hend⟩ := h.search_some ht
      rw [Array.size_extract] at hend
      simp only
      omega

/-- What is found past a place is the leftmost match that can be seen from there. -/
theorem Searches.past (h : m.Searches) (cut : Nat) : (m.past cut).Searches := by
  have hsize : ∀ text : Array Char, (text.extract cut).size = text.size - cut := by
    intro text
    rw [Array.size_extract, Nat.min_self]
  -- a place with a match lies past the cut, and it has one there
  have hmisses : ∀ {text : Array Char} {place : Nat},
      (cut ≤ place → m.Misses (text.extract cut) (place - cut)) →
        (m.past cut).Misses text place := by
    intro text place hmiss stop hmatched
    obtain ⟨hle, stop', hmatched', -⟩ := attempt_past_eq_matched.mp hmatched
    exact hmiss hle stop' hmatched'
  constructor
  · intro text index s hs
    by_cases hcut : text.size < cut
    · have hnone : (m.past cut).search text index = none := if_pos hcut
      rw [hnone] at hs
      exact nomatch hs
    · rw [search_past (Nat.le_of_not_lt hcut)] at hs
      obtain ⟨t, ht, rfl⟩ := Option.map_eq_some_iff.mp hs
      obtain ⟨hindex, hend, hmatched, hfirst⟩ := h.search_some ht
      rw [hsize] at hend
      refine ⟨?_, ?_, ?_, fun place hplace hlt => ?_⟩
      · show index ≤ t.start + cut
        omega
      · show t.start + cut ≤ text.size
        omega
      · refine attempt_past_eq_matched.mpr ⟨Nat.le_add_left _ _, t.stop, ?_, rfl⟩
        rw [Nat.add_sub_cancel]
        exact hmatched
      · have hlt' : place < t.start + cut := hlt
        exact hmisses fun hle => hfirst (place - cut) (by omega) (by omega)
  · intro text index hs place hindex hplace
    refine hmisses fun hle => ?_
    rw [search_past (Nat.le_trans hle hplace), Option.map_eq_none_iff] at hs
    exact h.search_none hs (by omega) (by rw [hsize]; omega)
  · intro text place stop hplace hmatched
    obtain ⟨hle, stop', hmatched', rfl⟩ := attempt_past_eq_matched.mp hmatched
    have hbounds := h.bounds (by rw [hsize]; omega) hmatched'
    rw [hsize] at hbounds
    omega

/-- An attempt past a cut that leaves what it may look at is one on the text. -/
theorem Near.attempt_past {context : Nat} (h : m.Near context)
    (hcut : cut = 0 ∨ cut + context ≤ place) (hplace : place ≤ text.size) :
    (m.past cut).attempt text place = m.attempt text place := by
  rcases hcut with rfl | hcut
  · rw [Matcher.attempt_past (Nat.zero_le _), Nat.sub_zero, Array.extract_size]
    cases m.attempt text place <;> rfl
  · rw [Matcher.attempt_past (by omega), h.context_le hcut hplace]

/-- A search past a cut that leaves what attempts may look at finds what a search in the text
    does. -/
theorem Near.search_past {context : Nat} (h : m.Near context)
    (hcut : cut = 0 ∨ cut + context ≤ index) :
    (m.past cut).search text index = m.search text index := by
  refine (h.toSearches.past cut).search_congr h.toSearches fun place hplace hend => ?_
  exact h.attempt_past (by omega) hend

/-- A search in the text without its front finds the same match, as long as the characters that
    attempts may look at are left. -/
theorem Lawful.search_extract {context : Nat} (h : m.Lawful context) {cut : Nat}
    (hcut : cut = 0 ∨ cut + context ≤ index) (hsize : cut ≤ text.size) :
    m.search text index =
      (m.search (text.extract cut) (index - cut)).map fun s => ⟨s.start + cut, s.stop + cut⟩ := by
  rw [← h.near.search_past hcut, Matcher.search_past hsize]

end

/-! ## One word -/

/-- Whether a word stands at a place of a text. -/
def standsAt (word : List Char) (text : Array Char) (place : Nat) : Bool :=
  word.isPrefixOf (text.toList.drop place)

/-- The matcher for one word. -/
def literal (word : List Char) : Matcher where
  search text index :=
    ((List.range' index (text.size + 1 - index)).find? (standsAt word text)).map
      fun place => ⟨place, place + word.length⟩
  attempt text place :=
    if standsAt word text place then .matched (place + word.length)
    else if (text.toList.drop place).isPrefixOf word then .unfinished
    else .failed

variable {word : List Char}

theorem literal_attempt_eq_matched {text : Array Char} {place stop : Nat} :
    (literal word).attempt text place = .matched stop ↔
      standsAt word text place = true ∧ stop = place + word.length := by
  show (if standsAt word text place = true then _ else if _ then _ else _) = _ ↔ _
  by_cases hstands : standsAt word text place = true
  · rw [if_pos hstands]
    constructor
    · intro h
      exact ⟨hstands, (Attempt.matched.inj h).symm⟩
    · rintro ⟨-, rfl⟩
      rfl
  · rw [if_neg hstands]
    constructor
    · intro h
      split at h <;> exact nomatch h
    · rintro ⟨h, -⟩
      exact absurd h hstands

theorem searches_literal (word : List Char) : (literal word).Searches where
  search_some {text index s} h := by
    obtain ⟨place, hplace, rfl⟩ := Option.map_eq_some_iff.mp h
    obtain ⟨hstands, hmem, hfirst⟩ := List.find?_range'_eq_some.mp hplace
    rw [List.mem_range'_1] at hmem
    refine ⟨hmem.1, ?_, literal_attempt_eq_matched.mpr ⟨hstands, rfl⟩, ?_⟩
    · show place ≤ text.size
      omega
    · intro earlier hindex hlt stop hmatched
      have hnot := hfirst earlier hindex hlt
      rw [(literal_attempt_eq_matched.mp hmatched).1] at hnot
      exact nomatch hnot
  search_none {text index} h place hindex hplace stop hmatched := by
    have hnone := Option.map_eq_none_iff.mp h
    have hnot := List.find?_range'_eq_none.mp hnone place hindex (by omega)
    rw [(literal_attempt_eq_matched.mp hmatched).1] at hnot
    exact nomatch hnot
  bounds {text place stop} hplace h := by
    obtain ⟨hstands, rfl⟩ := literal_attempt_eq_matched.mp h
    have hlength := (List.isPrefixOf_iff_prefix.mp hstands).length_le
    have hsize : text.toList.length = text.size := Array.length_toList
    rw [List.length_drop, hsize] at hlength
    constructor
    · exact Nat.le_add_right _ _
    · omega

/-- A word may be looked for in any piece of the text from the place on. -/
theorem lawful_literal (word : List Char) : (literal word).Lawful 0 where
  toSearches := searches_literal word
  failed {text place} hplace h more stop hmatched := by
    obtain ⟨hstands, -⟩ := literal_attempt_eq_matched.mp hmatched
    have hprefix := List.isPrefixOf_iff_prefix.mp hstands
    rw [Array.toList_append, List.drop_append_of_le_length
      (by rw [Array.length_toList]; exact hplace)] at hprefix
    have hnot : ¬ standsAt word text place = true := by
      intro hcase
      rw [literal_attempt_eq_matched.mpr ⟨hcase, rfl⟩] at h
      exact nomatch h
    have hopen : ¬ (text.toList.drop place).isPrefixOf word = true := by
      intro hcase
      change (if standsAt word text place = true then _ else if _ then _ else _) = _ at h
      rw [if_neg hnot, if_pos hcase] at h
      exact nomatch h
    rcases List.prefix_or_prefix_of_prefix hprefix (List.prefix_append _ _) with hword | htext
    · exact hnot (List.isPrefixOf_iff_prefix.mpr hword)
    · exact hopen (List.isPrefixOf_iff_prefix.mpr htext)
  settled {text place stop} h hstop more := by
    obtain ⟨hstands, rfl⟩ := literal_attempt_eq_matched.mp h
    refine Or.inl (literal_attempt_eq_matched.mpr ⟨?_, rfl⟩)
    have hprefix := List.isPrefixOf_iff_prefix.mp hstands
    refine List.isPrefixOf_iff_prefix.mpr ?_
    rw [Array.toList_append, List.drop_append_of_le_length
      (by rw [Array.length_toList]; omega)]
    exact hprefix.trans (List.prefix_append _ _)
  context_le {text cut place} hcut hplace := by
    have hdrop : (text.extract cut).toList.drop (place - cut) = text.toList.drop place := by
      rw [Array.toList_extract, List.extract_eq_take_drop,
        List.take_of_length_le (Nat.le_of_eq (by rw [List.length_drop, Array.length_toList])),
        List.drop_drop]
      congr 1
      omega
    have hstands : standsAt word (text.extract cut) (place - cut) = standsAt word text place := by
      rw [standsAt, standsAt, hdrop]
    show (if standsAt word text place = true then _ else if _ then _ else _) =
      Attempt.shifted cut (if standsAt word (text.extract cut) (place - cut) = true then _
        else if _ then _ else _)
    rw [hstands, hdrop]
    split
    · show Attempt.matched _ = .matched _
      rw [show place - cut + word.length + cut = place + word.length by omega]
    · split <;> rfl

end Matcher

namespace Pattern

/-! ## Compiled patterns -/

variable {p : Pattern}

theorem attempt_eq_matched {text : Array Char} {index stop : Nat} :
    p.attempt text index = .matched stop ↔
      ∃ s, p.runAt text false index = .matched s ∧ s.index = stop := by
  rw [attempt]
  cases p.runAt text false index with
  | matched s =>
    constructor
    · intro h
      exact ⟨s, rfl, Attempt.matched.inj h⟩
    · rintro ⟨t, ht, rfl⟩
      rw [Outcome.matched.inj ht]
  | refused => cases p.runAt text true index <;> simp
  | exhausted => cases p.runAt text true index <;> simp

theorem misses_iff {text : Array Char} {index : Nat} :
    p.matcher.Misses text index ↔ ∀ s, p.runAt text false index ≠ .matched s := by
  constructor
  · intro h s hs
    exact h s.index (attempt_eq_matched.mpr ⟨s, hs, rfl⟩)
  · intro h stop hstop
    obtain ⟨s, hs, -⟩ := attempt_eq_matched.mp hstop
    exact h s hs

/-- A search goes on where there is no match. -/
theorem searchFrom_of_misses {text : Array Char} {index : Nat}
    (h : p.matcher.Misses text index) (places : Nat) :
    p.searchFrom text (places + 1) index = p.searchFrom text places (index + 1) := by
  rw [misses_iff] at h
  rw [searchFrom]
  cases hrun : p.runAt text false index with
  | matched s => exact absurd hrun (h s)
  | refused => rfl
  | exhausted => rfl

/-- A search that tries so many places takes the first with a match. -/
theorem searchFrom_eq_some {text : Array Char} {places index : Nat} {s : Span}
    (h : p.searchFrom text places index = some s) :
    index ≤ s.start ∧ s.start < index + places ∧ p.attempt text s.start = .matched s.stop ∧
      ∀ place, index ≤ place → place < s.start → p.matcher.Misses text place := by
  induction places generalizing index with
  | zero => exact nomatch h
  | succ places ih =>
    by_cases hmiss : p.matcher.Misses text index
    · rw [searchFrom_of_misses hmiss] at h
      obtain ⟨hindex, hstart, hmatched, hfirst⟩ := ih h
      refine ⟨by omega, by omega, hmatched, fun place hplace hlt => ?_⟩
      by_cases heq : place = index
      · rw [heq]
        exact hmiss
      · exact hfirst place (by omega) hlt
    · rw [misses_iff, Classical.not_forall] at hmiss
      obtain ⟨t, ht⟩ := hmiss
      rw [Classical.not_not] at ht
      rw [searchFrom, ht] at h
      obtain rfl := Option.some.inj h
      refine ⟨Nat.le_refl _, Nat.lt_add_of_pos_right (Nat.succ_pos _),
        attempt_eq_matched.mpr ⟨t, ht, rfl⟩, fun place hplace hlt => ?_⟩
      exact absurd hlt (Nat.not_lt.mpr hplace)

theorem searchFrom_eq_none {text : Array Char} {places index : Nat}
    (h : p.searchFrom text places index = none) {place : Nat} (hindex : index ≤ place)
    (hplace : place < index + places) : p.matcher.Misses text place := by
  induction places generalizing index with
  | zero => exact absurd hplace (Nat.not_lt.mpr hindex)
  | succ places ih =>
    by_cases hmiss : p.matcher.Misses text index
    · by_cases heq : place = index
      · rw [heq]
        exact hmiss
      · rw [searchFrom_of_misses hmiss] at h
        exact ih h (by omega) (by omega)
    · rw [misses_iff, Classical.not_forall] at hmiss
      obtain ⟨t, ht⟩ := hmiss
      rw [Classical.not_not] at ht
      rw [searchFrom, ht] at h
      cases h

/-- A compiled pattern keeps the law of searching: matching goes forward, and no place is left out
    that could begin a match. -/
theorem searches (p : Pattern) : p.matcher.Searches where
  search_some {text index s} h := by
    replace h : p.search text index = some s := h
    rw [search_eq] at h
    obtain ⟨hindex, hstart, hmatched, hfirst⟩ := searchFrom_eq_some h
    exact ⟨hindex, by omega, hmatched, hfirst⟩
  search_none {text index} h place hindex hplace := by
    replace h : p.search text index = none := h
    rw [search_eq] at h
    exact searchFrom_eq_none h hindex (by omega)
  bounds {text place stop} hplace h := by
    obtain ⟨s, hs, rfl⟩ := attempt_eq_matched.mp h
    rcases run_forward p.expr ⟨text, p.flags, false⟩ (.start place) .matched with
      hrefused | ⟨hgrow, -⟩ | ⟨t, hle, hend, hmatched⟩
    · rw [runAt, hrefused] at hs
      exact nomatch hs
    · exact nomatch hgrow
    · rw [runAt, hmatched] at hs
      obtain rfl := Outcome.matched.inj hs
      have hmax : max place text.size = text.size := Nat.max_eq_right hplace
      exact ⟨hle, hmax ▸ hend⟩

end Pattern

end StreamScan

import StreamScan.Proofs.Engine.Timely
import StreamScan.Proofs.Scan.Passes

/-!
# A scan finds the matches of the whole stream

The matches of a text are found one after the other in the whole text: the leftmost, then the next
one behind it.  A scan never sees the whole text.  It finds the same matches all the same, if they
fit into its window, the text decides in time, and the matcher keeps the laws that a growing text
asks for.

There is one exception, a match that brims: it fills the window to its last byte, more text follows,
the window is so large that the engine reads in longer steps, and the source has no positional
reads.  When the engine knows that such a match ends, it has read on beyond what the window is sure
to hold, and the scan may break off there.

* **`Matcher.scan`** — the matches of a text.
* **`Yields`** — the search from a place on finds the next match; `yields_exact` says that it does.
* **`Course.spans`** — then the course of a scan is that of the matches, by induction over the
  course.
* **`outcome_exact`** — a scan delivers the matches of its stream, or breaks off at one that brims.
-/

namespace StreamScan

/-! ## The matches of a text -/

/-- Where to look for the next match: at the end of the last one, or at the next index if that was
    empty. -/
def Span.next (s : Span) : Nat := if s.start = s.stop then s.start + 1 else s.stop

/-- The matches of a text from an index on, one after the other. -/
def Matcher.scan (m : Matcher) (text : Array Char) (index : Nat) : List Span :=
  if text.size < index then []
  else
    match m.search text index with
    | none => []
    | some s => if index < s.next then s :: m.scan text s.next else [s]
termination_by text.size + 1 - index

/-- The matches of a stream, decoded as a whole. -/
def Matcher.matchesOf (m : Matcher) (stream : Bytes) : List Match :=
  (m.scan (letters (Utf8.codepoints stream)) 0).map fun s =>
    (s.inBytes (Utf8.codepoints stream)).toMatch stream

namespace Matcher

variable {m : Matcher} {text : Array Char} {index : Nat}

theorem scan_past (h : text.size < index) : m.scan text index = [] := by
  rw [scan, if_pos h]

theorem scan_none (h : m.search text index = none) : m.scan text index = [] := by
  rw [scan, h]
  split <;> rfl

/-- After a match the scan goes on behind it. -/
theorem scan_cons (hindex : index ≤ text.size) {s : Span} (h : m.search text index = some s)
    (hfrom : index ≤ s.start) (hspan : s.start ≤ s.stop) :
    m.scan text index = s :: m.scan text s.next := by
  have hnext : index < s.next := by
    rw [Span.next]
    split <;> omega
  rw [scan, if_neg (Nat.not_lt.mpr hindex), h]
  exact if_pos hnext

theorem scan_some (hm : m.Searches) {s : Span} (hindex : index ≤ text.size)
    (h : m.search text index = some s) : m.scan text index = s :: m.scan text s.next := by
  obtain ⟨hfrom, hend, hmatched, -⟩ := hm.search_some h
  exact scan_cons hindex h hfrom (hm.bounds hend hmatched).1

/-- What the scan of a text goes through are matches. -/
theorem mem_scan (hm : m.Searches) {s : Span} (h : s ∈ m.scan text index) :
    s.start ≤ text.size ∧ m.attempt text s.start = .matched s.stop := by
  fun_induction scan m text index with
  | case1 index hpast => exact nomatch h
  | case2 index hinside hnone => exact nomatch h
  | case3 index hinside t hfound hlater ih =>
    rcases List.mem_cons.mp h with rfl | hrest
    · exact ⟨(hm.search_some hfound).start_le, (hm.search_some hfound).matched⟩
    · exact ih hrest
  | case4 index hinside t hfound hlater =>
    rw [List.mem_singleton.mp h]
    exact ⟨(hm.search_some hfound).start_le, (hm.search_some hfound).matched⟩

end Matcher

/-! ## One search -/

/-- A search from a position finds one thing only. -/
theorem Finds.unique {e : Engine} {stream : Bytes} {position : Nat} {f g : Finding}
    (hf : Finds e stream position f) (hg : Finds e stream position g) : f = g := by
  obtain ⟨location, calls, hfind, rfl⟩ := hf
  obtain ⟨location', calls', hfind', rfl⟩ := hg
  rw [hfind] at hfind'
  obtain ⟨hlocation, htape⟩ := Prod.mk.inj hfind'
  obtain rfl := Option.some.inj (Except.ok.inj hlocation)
  have hcalls : calls = calls' := congrArg Tape.calls htape
  rw [hcalls]

section
variable {e : Engine} {stream : Bytes} {w : List Codepoint} {k : Nat}

/-- A stretch of the rest of a text, seen in the text. -/
theorem inBytes_drop (w : List Codepoint) (k : Nat) (t : Span) :
    Span.inBytes w ⟨t.start + k, t.stop + k⟩ =
      ⟨width (w.take k) + (t.inBytes (w.drop k)).start,
        width (w.take k) + (t.inBytes (w.drop k)).stop⟩ := by
  rw [Span.inBytes, Nat.add_comm t.start, Nat.add_comm t.stop, width_take_add, width_take_add]
  rfl

/-- The first match of the rest of a text is the next match of the text. -/
theorem search_drop (hm : e.matcher.Lawful 0) (hk : k ≤ w.length) :
    e.matcher.search (letters w) k =
      (e.matcher.search (letters (w.drop k)) 0).map fun t => ⟨t.start + k, t.stop + k⟩ := by
  have hsize : k ≤ (letters w).size := by
    rw [size_letters]
    exact hk
  have hleaves : k = 0 ∨ k + 0 ≤ k := Or.inr (Nat.le_refl k)
  have hsearch := hm.search_extract hleaves hsize
  rw [← letters_drop, Nat.sub_self] at hsearch
  exact hsearch

/-- A stretch that fills the window to its last byte, with more text behind it, where that does
    harm: the window is so large that the engine takes longer steps, and there are no positional
    reads. -/
structure Brims (positional : Bool) (capacity : Nat) (stream : Bytes) (s : Span) : Prop where
  sequential : positional = false
  large : 128 ≤ capacity
  full : s.stop - s.start = capacity
  more : s.stop < stream.length

/-- In a text of code points of one byte, the places where one word stands are as wide as it. -/
theorem width_literal {word : List Char} (hsizes : ∀ c ∈ w, c.size = 1) {s : Span}
    (h : s ∈ (Matcher.literal word).scan (letters w) k) :
    (s.inBytes w).stop - (s.inBytes w).start = word.length := by
  obtain ⟨hstart, hmatched⟩ := Matcher.mem_scan (Matcher.searches_literal word) h
  have hstop := ((Matcher.searches_literal word).bounds hstart hmatched).2
  obtain ⟨-, hword⟩ := Matcher.literal_attempt_eq_matched.mp hmatched
  rw [size_letters] at hstart hstop
  rw [Span.inBytes]
  simp only
  rw [width_take_eq hsizes hstop, width_take_eq hsizes hstart]
  omega

/-- The search from a place of a text on is timely, and finds the first match of the rest. -/
theorem findNext_rest (hm : e.matcher.Lawful 0) (hwindow : Cursor.minCapacity ≤ e.window)
    (hw : Utf8.codepoints stream = w) (hdecides : e.matcher.Decides w e.window)
    (hk : k ≤ w.length) (hwithin : ∀ s, e.matcher.search (letters w) k = some s →
      (s.inBytes w).stop - (s.inBytes w).start ≤ e.window) :
    ∃ calls, e.findNext (tapeFrom stream (width (w.take k))) =
        (.ok ((e.matcher.search (letters (w.drop k)) 0).map (Span.inBytes (w.drop k))),
          Tape.after (w.drop k) calls) ∧
      ∀ t, e.matcher.search (letters (w.drop k)) 0 = some t → e.Timely (w.drop k) t calls := by
  have hrest : Utf8.codepoints (stream.drop (width (w.take k))) = w.drop k := by
    rw [← hw, Utf8.codepoints_drop]
  -- the first match of the rest is one of the text, and that fits
  have hspan : ∀ t, e.matcher.Leftmost (letters (w.drop k)) 0 t →
      width ((w.drop k).take t.stop) - width ((w.drop k).take t.start) ≤ e.window := by
    intro t ht
    have hsearch := search_drop hm hk
    rw [hm.search_eq_some ht, Option.map_some] at hsearch
    have hle := hwithin _ hsearch
    rw [inBytes_drop] at hle
    simp only [Nat.add_sub_add_left] at hle
    exact hle
  obtain ⟨calls, hfind, -, htimely⟩ := Engine.findNext_timely hm hwindow
    (Utf8.sizes_of_codepoints hrest) hspan (hdecides.drop hm hk)
  rw [tapeFrom, hrest]
  exact ⟨calls, hfind, htimely⟩

/-- What the search of an engine from a place of a text on comes to: it finds what a matcher finds
    in the text from there on, and `Q` holds of the finding. -/
inductive Yields (e : Engine) (stream : Bytes) (w : List Codepoint) (m : Matcher)
    (Q : Finding → Prop) (k : Nat) : Prop
  | none (search : m.search (letters w) k = none)
    (find : (e.findNext (tapeFrom stream (width (w.take k)))).1 = .ok none)
  | some {s : Span} {f : Finding} (search : m.search (letters w) k = some s)
    (start_le : k ≤ s.start) (le : s.start ≤ s.stop) (stop_le : s.stop ≤ w.length)
    (finds : Finds e stream (width (w.take k)) f) (span_eq : f.span = s.inBytes w) (holds : Q f)

/-- A search that answers with the first match of the rest of a text. -/
theorem yields_of_findNext (hm : e.matcher.Searches) (hw : Utf8.codepoints stream = w)
    (hk : k ≤ w.length) {m : Matcher} {Q : Finding → Prop} {calls : Nat}
    (hsearch : m.search (letters w) k =
      (e.matcher.search (letters (w.drop k)) 0).map fun t => ⟨t.start + k, t.stop + k⟩)
    (hfind : e.findNext (tapeFrom stream (width (w.take k))) =
      (.ok ((e.matcher.search (letters (w.drop k)) 0).map (Span.inBytes (w.drop k))),
        Tape.after (w.drop k) calls))
    (hholds : ∀ t, e.matcher.search (letters (w.drop k)) 0 = some t →
      Q ⟨width (w.take k) + (t.inBytes (w.drop k)).start,
        width (w.take k) + (t.inBytes (w.drop k)).stop,
        width (w.take k) + width ((w.drop k).take (calls - 1))⟩) :
    Yields e stream w m Q k := by
  have hrest : Utf8.codepoints (stream.drop (width (w.take k))) = w.drop k := by
    rw [← hw, Utf8.codepoints_drop]
  cases hfound : e.matcher.search (letters (w.drop k)) 0 with
  | none =>
    rw [hfound] at hsearch hfind
    exact .none hsearch (congrArg Prod.fst hfind)
  | some t =>
    obtain ⟨-, hend, hmatched, -⟩ := hm.search_some hfound
    obtain ⟨hspan, hinside⟩ := hm.bounds hend hmatched
    rw [size_letters, List.length_drop] at hinside
    rw [hfound] at hsearch hfind
    refine .some hsearch (Nat.le_add_left k t.start) (Nat.add_le_add_right hspan k) ?_
      ⟨t.inBytes (w.drop k), calls, ?_, rfl⟩ ?_ ?_
    · show t.stop + k ≤ w.length
      omega
    · rw [hfind, hrest]
      rfl
    · rw [Finding.span, inBytes_drop]
    · rw [hrest]
      exact hholds t hfound

/-- The search from a place of a text on finds the next match, and it is late only if it brims. -/
theorem yields_exact (hm : e.matcher.Lawful 0) (hwindow : Cursor.minCapacity ≤ e.window)
    (hw : Utf8.codepoints stream = w) (hdecides : e.matcher.Decides w e.window)
    (hk : k ≤ w.length) (hfits : ∀ s ∈ e.matcher.scan (letters w) k,
      (s.inBytes w).stop - (s.inBytes w).start ≤ e.window) :
    Yields e stream w e.matcher (fun f => ∀ positional, f.Late positional e.window →
      Brims positional e.window stream f.span) k := by
  have hwithin : ∀ s, e.matcher.search (letters w) k = some s →
      (s.inBytes w).stop - (s.inBytes w).start ≤ e.window := by
    intro s hs
    have hscan := Matcher.scan_some hm.toSearches (by rw [size_letters]; exact hk) hs
    exact hfits s (by rw [hscan]; exact List.mem_cons_self)
  have hrest : Utf8.codepoints (stream.drop (width (w.take k))) = w.drop k := by
    rw [← hw, Utf8.codepoints_drop]
  obtain ⟨calls, hfind, htimely⟩ := findNext_rest hm hwindow hw hdecides hk hwithin
  refine yields_of_findNext hm.toSearches hw hk (search_drop hm hk) hfind
    fun t ht positional hlate => ?_
  obtain ⟨hstart, hend, hmatched, -⟩ := hm.search_some ht
  have hspan := width_take_le (w := w.drop k) (hm.bounds hend hmatched).1
  have hbegin : (t.inBytes (w.drop k)).start = width ((w.drop k).take t.start) := rfl
  have hfinish : (t.inBytes (w.drop k)).stop = width ((w.drop k).take t.stop) := rfl
  have hsteps := e.step_le
  rw [Finding.Late, Cursor.Follows.needed] at hlate
  simp only at hlate
  rw [Finding.span]
  cases htimely t ht with
  | inTime h => split at hlate <;> omega
  | behind hstep hfull hmore h =>
    -- with positional reads only the end of the match has to be held, and that is
    have hsequential : positional = false := by
      cases positional with
      | false => rfl
      | true =>
        rw [if_pos rfl] at hlate
        omega
    refine ⟨hsequential, by omega, ?_, ?_⟩
    · simp only [Nat.add_sub_add_left]
      exact hfull
    · -- a place before the end of the text is before the end of the stream
      have hsizes : ∀ c ∈ w.drop k, 1 ≤ c.size := fun c hc =>
        (Utf8.sizes_of_codepoints hrest c hc).1
      have hless := width_take_lt hsizes hmore (Nat.le_refl _)
      have htotal := congrArg width (List.take_append_drop k w)
      rw [width_append] at htotal
      rw [List.take_length] at hless
      rw [← Utf8.width_codepoints stream, hw]
      simp only
      omega

/-! ## The whole course -/

/-- In bytes a stretch is empty when it is. -/
theorem Span.inBytes_empty (hsizes : ∀ c ∈ w, 1 ≤ c.size) {s : Span} (hle : s.start ≤ s.stop)
    (hinside : s.stop ≤ w.length) :
    (s.inBytes w).start = (s.inBytes w).stop ↔ s.start = s.stop := by
  constructor
  · intro heq
    refine Nat.le_antisymm hle (Nat.le_of_not_lt ?_)
    intro hlt
    exact absurd heq (Nat.ne_of_lt (width_take_lt hsizes hlt hinside))
  · intro heq
    rw [Span.inBytes, heq]

section
variable {m : Matcher} {Q : Finding → Prop}

theorem search_none_of_yields (h : Yields e stream w m Q k)
    (hover : (e.findNext (tapeFrom stream (width (w.take k)))).1 = .ok none) :
    m.search (letters w) k = none := by
  cases h with
  | none hsearch _ => exact hsearch
  | some _ _ _ _ hfinds _ _ =>
    obtain ⟨location, calls, hfind, -⟩ := hfinds
    rw [hfind] at hover
    cases hover

/-- A search that yields is not refused. -/
theorem not_refused_of_yields (h : Yields e stream w m Q k) {failure : Failure} :
    (e.findNext (tapeFrom stream (width (w.take k)))).1 ≠ .error failure := by
  intro hrefused
  cases h with
  | none _ hover =>
    rw [hrefused] at hover
    cases hover
  | some _ _ _ _ hfinds _ _ =>
    obtain ⟨location, calls, hfind, -⟩ := hfinds
    rw [hfind] at hrefused
    cases hrefused

/-- What it has found is the next match. -/
theorem next_of_yields (h : Yields e stream w m Q k) (hk : k ≤ w.length) {f : Finding}
    (hf : Finds e stream (width (w.take k)) f) :
    ∃ s, m.search (letters w) k = some s ∧ s.start ≤ s.stop ∧ s.stop ≤ w.length ∧
      f.span = s.inBytes w ∧ Q f ∧ m.scan (letters w) k = s :: m.scan (letters w) s.next := by
  cases h with
  | none _ hover =>
    obtain ⟨location, calls, hfind, -⟩ := hf
    rw [hfind] at hover
    cases hover
  | some hsearch hfrom hle hinside hfinds hspan hholds =>
    obtain rfl := hf.unique hfinds
    exact ⟨_, hsearch, hle, hinside, hspan, hholds,
      Matcher.scan_cons (by rw [size_letters]; exact hk) hsearch hfrom hle⟩

/-- What a course finds from a place on, if the searches from there on yield what a matcher finds:
    its matches, one after the other.  `P` says from which places the searches do, and carries over
    from one to the next. -/
theorem Course.spans (hw : Utf8.codepoints stream = w) {P : Nat → Prop}
    (hyields : ∀ k, k ≤ w.length → P k → Yields e stream w m Q k)
    (hnext : ∀ k s, k ≤ w.length → P k → m.search (letters w) k = some s → P s.next)
    {position : Nat} {findings : List Finding} {ending : Ending}
    (hcourse : Course e stream position findings ending) (hk : k ≤ w.length)
    (hposition : position = width (w.take k)) (hP : P k) :
    ending = .finished ∧
      findings.map Finding.span = (m.scan (letters w) k).map (Span.inBytes w) ∧
      ∀ f ∈ findings, Q f := by
  have hsizes : ∀ c ∈ w, 1 ≤ c.size := fun c hc => (Utf8.sizes_of_codepoints hw c hc).1
  induction hcourse generalizing k with
  | finished hover =>
    subst hposition
    rw [Matcher.scan_none (search_none_of_yields (hyields k hk hP) hover)]
    exact ⟨rfl, rfl, fun f hf => absurd hf List.not_mem_nil⟩
  | refused hrefused =>
    subst hposition
    exact absurd hrefused (not_refused_of_yields (hyields k hk hP))
  | last hfinds hempty hend =>
    subst hposition
    obtain ⟨s, -, hle, hinside, hspan, hholds, hscan⟩ :=
      next_of_yields (hyields k hk hP) hk hfinds
    have hstop : width (w.take s.stop) = _ := congrArg Span.stop hspan.symm
    have hequal : s.start = s.stop := by
      rw [← Span.inBytes_empty hsizes hle hinside, ← hspan]
      exact hempty
    -- nothing can be decoded behind the match, so it lies at the end of the text
    have hover : w.length < s.next := by
      have hnone := Utf8.getElem?_codepoints stream s.stop
      rw [hw, hstop, Finding.span, hend, List.getElem?_eq_none_iff] at hnone
      rw [Span.next, if_pos hequal]
      omega
    rw [hscan, Matcher.scan_past (by rw [size_letters]; exact hover)]
    refine ⟨rfl, ?_, ?_⟩
    · rw [List.map_singleton, List.map_singleton, hspan]
    · intro f hf
      rw [List.mem_singleton.mp hf]
      exact hholds
  | empty hfinds hempty hpoint rest ih =>
    rename_i position f point findings ending
    subst hposition
    obtain ⟨s, hsearch, hle, hinside, hspan, hholds, hscan⟩ :=
      next_of_yields (hyields k hk hP) hk hfinds
    have hstop : f.stop = width (w.take s.stop) := congrArg Span.stop hspan
    have hequal : s.start = s.stop := by
      rw [← Span.inBytes_empty hsizes hle hinside, ← hspan]
      exact hempty
    have hafter : s.next = s.stop + 1 := by
      rw [Span.next, if_pos hequal, hequal]
    have hsome := Utf8.getElem?_codepoints stream s.stop
    rw [hw, ← hstop, hpoint, List.getElem?_eq_some_iff] at hsome
    obtain ⟨hmore, hget⟩ := hsome
    have hplace : f.stop + point.size = width (w.take s.next) := by
      rw [hafter, width_take_succ hmore, hget, hstop]
    obtain ⟨hending, hlist, hall⟩ := ih (by omega) hplace (hnext k s hk hP hsearch)
    rw [hscan, List.map_cons, List.map_cons, hlist, hspan]
    exact ⟨hending, rfl, List.forall_mem_cons.mpr ⟨hholds, hall⟩⟩
  | full hfinds hnonempty rest ih =>
    subst hposition
    obtain ⟨s, hsearch, hle, hinside, hspan, hholds, hscan⟩ :=
      next_of_yields (hyields k hk hP) hk hfinds
    have hunequal : ¬ s.start = s.stop := by
      rw [← Span.inBytes_empty hsizes hle hinside, ← hspan]
      exact Nat.ne_of_lt hnonempty
    have hP' := hnext k s hk hP hsearch
    rw [Span.next, if_neg hunequal] at hscan hP'
    obtain ⟨hending, hlist, hall⟩ := ih hinside (congrArg Span.stop hspan) hP'
    rw [hscan, List.map_cons, List.map_cons, hlist, hspan]
    exact ⟨hending, rfl, List.forall_mem_cons.mpr ⟨hholds, hall⟩⟩

end

/-- The course from a place on is that of the matches from there on, and what is late in it
    brims. -/
theorem Course.exact (hm : e.matcher.Lawful 0) (hwindow : Cursor.minCapacity ≤ e.window)
    (hw : Utf8.codepoints stream = w) (hdecides : e.matcher.Decides w e.window)
    {position : Nat} {findings : List Finding} {ending : Ending}
    (hcourse : Course e stream position findings ending) (hk : k ≤ w.length)
    (hposition : position = width (w.take k))
    (hfits : ∀ s ∈ e.matcher.scan (letters w) k,
      (s.inBytes w).stop - (s.inBytes w).start ≤ e.window) :
    ending = .finished ∧
      findings.map Finding.span = (e.matcher.scan (letters w) k).map (Span.inBytes w) ∧
      ∀ f ∈ findings, ∀ positional, f.Late positional e.window →
        Brims positional e.window stream f.span := by
  refine hcourse.spans hw (P := fun k => ∀ s ∈ e.matcher.scan (letters w) k,
      (s.inBytes w).stop - (s.inBytes w).start ≤ e.window)
    (fun k hk => yields_exact hm hwindow hw hdecides hk) (fun k s hk hfits hs t ht => ?_) hk
    hposition hfits
  have hscan := Matcher.scan_some hm.toSearches (by rw [size_letters]; exact hk) hs
  exact hfits t (by rw [hscan]; exact List.mem_cons_of_mem s ht)

end

namespace Scan

variable {σ : Type} [FiniteSource σ] {positional : Bool} {stream : Bytes}

/-- The matches of a stream in the form in which a course has them. -/
theorem matchesOf_eq {m : Matcher} {findings : List Finding}
    (h : findings.map Finding.span = (m.scan (letters (Utf8.codepoints stream)) 0).map
      (Span.inBytes (Utf8.codepoints stream))) :
    m.matchesOf stream = findings.map (·.toMatch stream) := by
  have hmap := congrArg (List.map (Span.toMatch stream)) h
  rw [List.map_map, List.map_map] at hmap
  exact hmap.symm

/-- A scan delivers the matches of its stream, however that arrives, if they fit into the window and
    the stream decides in time; except that it may break off, with all matches before it delivered,
    at a match that fills the window to its last byte. -/
theorem outcome_exact {m : Matcher} (hm : m.Lawful 0) (size : Int) {source : σ}
    (hsource : WellBehaved positional stream source)
    (hdecides : m.Decides (Utf8.codepoints stream) (windowSize size))
    (hfits : ∀ s ∈ m.scan (letters (Utf8.codepoints stream)) 0,
      (s.inBytes (Utf8.codepoints stream)).stop - (s.inBytes (Utf8.codepoints stream)).start ≤
        windowSize size) :
    (ofMatcher m source size).outcome = (m.matchesOf stream, .finished) ∨
      ∃ before s after failure,
        m.scan (letters (Utf8.codepoints stream)) 0 = before ++ s :: after ∧
        Brims positional (windowSize size) stream (s.inBytes (Utf8.codepoints stream)) ∧
        failure.kind = .outOfWindow ∧
        (ofMatcher m source size).outcome =
          (before.map fun t => (t.inBytes (Utf8.codepoints stream)).toMatch stream,
            .failed failure) := by
  have hwindow := minCapacity_le_window m size
  rw [← window_engineOf m size] at hdecides hfits
  obtain ⟨findings, ending, hcourse, hlength⟩ :=
    exists_course (e := engineOf m size) hm.toSearches.confined (Utf8.place_zero stream)
  obtain ⟨rfl, hspans, hbrims⟩ :=
    hcourse.exact (k := 0) hm hwindow rfl hdecides (Nat.zero_le _) rfl hfits
  rw [window_engineOf] at hbrims
  rcases (delivered_outcome hm.toSearches.confined size hsource hcourse hlength).complete_or_lost
    with
    ⟨hall, hend⟩ | ⟨before, f, after, failure, rfl, hlate, hfront, hend, hkind⟩
  · exact Or.inl (Prod.ext (hall.trans (matchesOf_eq hspans).symm) hend)
  · -- the late finding is one of the matches, and it brims
    have hbrim := hbrims f (List.mem_append_right before List.mem_cons_self) positional hlate
    rw [List.map_append, List.map_cons, eq_comm, List.map_eq_append_iff] at hspans
    obtain ⟨front, back, hscan, hbefore, hback⟩ := hspans
    obtain ⟨s, rest, rfl, hspan, -⟩ := List.map_eq_cons_iff.mp hback
    rw [← hspan] at hbrim
    refine Or.inr ⟨front, s, rest, failure, hscan, hbrim, hkind hbrim.sequential, ?_⟩
    refine Prod.ext (hfront.trans ?_) hend
    have hmap := congrArg (List.map (Span.toMatch stream)) hbefore
    rw [List.map_map, List.map_map] at hmap
    exact hmap.symm

/-- The word `ab` in a stream that arrives byte by byte. -/
theorem outcome_exact_word :
    (ofMatcher (.literal ['a', 'b']) (Buffer.ofPayload [99, 97, 98, 97, 97, 98] (some 1) false)
      16).outcome = ((Matcher.literal ['a', 'b']).matchesOf [99, 97, 98, 97, 97, 98], .finished) ∧
    (Matcher.literal ['a', 'b']).matchesOf [99, 97, 98, 97, 97, 98] =
      [⟨1, [97, 98]⟩, ⟨4, [97, 98]⟩] := by
  have hsource : WellBehaved false [99, 97, 98, 97, 97, 98]
      (Buffer.ofPayload [99, 97, 98, 97, 97, 98] (some 1) false) :=
    Buffer.wellBehaved (by rintro _ ⟨⟩; decide) false _
  have hsizes : ∀ c ∈ Utf8.codepoints [99, 97, 98, 97, 97, 98], c.size = 1 := fun c =>
    Utf8.size_of_ascii (by decide +kernel)
  have hdecides : (Matcher.literal ['a', 'b']).Decides
      (Utf8.codepoints [99, 97, 98, 97, 97, 98]) (windowSize 16) :=
    Matcher.decides_literal hsizes (by decide)
  refine ⟨?_, by decide +kernel⟩
  rcases outcome_exact (Matcher.lawful_literal ['a', 'b']) 16 hsource hdecides (fun s hs => by
    rw [width_literal hsizes hs]; decide) with
    hexact | ⟨_, _, _, _, _, hbrims, _⟩
  · exact hexact
  · exact absurd hbrims.large (by decide)

end Scan

end StreamScan

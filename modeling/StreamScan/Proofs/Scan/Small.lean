import Mathlib.Control.Monad.Basic
import StreamScan.Proofs.Matcher.Steadiness
import StreamScan.Proofs.Scan.Exactness
import StreamScan.Proofs.Utf8.Encoding

/-!
# Inputs smaller than the window

When a stream is smaller than the window, no search has an answer before the end of the stream: a
match is reported, and a place refused, only when a window of text lies behind it.  So every search
reads to the end and answers with the first match of all that it has read, and the whole stream is
in the window when that match is copied.

But a search has read only what follows the last match.  Where a pattern looks at what precedes it,
the scan therefore finds what searches find that begin afresh after each match (`Matcher.afresh`),
and this may differ from the matches of the whole text (`findAll_afresh`).  It does not differ for
patterns that do not look back.  And a search drops places as it reads.  It has to be true of the
text that a place which was dropped begins no match (`Matcher.FinalOn`), as it is for every steady
pattern.

* **`Seek.small`** — the answer of a search in a text smaller than the window.
* **`Scan.run_collectTexts`** — a pass that collects texts is a pass that collects matches.
* **`Scan.findAll_small`** — the texts that a scan of a small stream returns.
-/

namespace StreamScan

/-! ## Searching afresh -/

/-- The matcher whose searches see nothing of the text before the index they begin at. -/
def Matcher.afresh (m : Matcher) : Matcher where
  search text index := (m.past index).search text index
  attempt := m.attempt

/-- For a matcher that does not look back it makes no difference. -/
theorem Matcher.Near.afresh_eq {m : Matcher} (hm : m.Near 0) : m.afresh = m := by
  have hsearch : (fun text index => (m.past index).search text index) = m.search := by
    funext text index
    exact hm.search_past (Or.inr (Nat.le_refl index))
  rw [Matcher.afresh, hsearch]

/-- The texts of the matches of a text. -/
def Matcher.textsOf (m : Matcher) (text : List Char) : List String :=
  (m.scan text.toArray 0).map fun s =>
    String.ofList ((text.drop s.start).take (s.stop - s.start))

/-! ## Searches in a small text -/

section
variable {e : Engine} {stream : Bytes} {w : List Codepoint} {n keep k : Nat}

/-- A search in a text smaller than the window answers with the first match of the text. -/
theorem Engine.Seek.small (hm : e.matcher.Searches) (hfinal : e.matcher.FinalOn (letters w))
    (hsmall : width w < e.window) {calls : Nat} {answer : Except Failure (Option Span)}
    (h : Engine.Seek e w n keep answer calls)
    (hruled : ∀ place, place < keep → e.matcher.Misses (letters w) place) :
    answer = .ok ((e.matcher.search (letters w) 0).map (Span.inBytes w)) := by
  induction h with
  | ended _ =>
    rw [hm.search_from (Nat.zero_le _) fun place _ hlt => hruled place hlt]
  | found _ _ hsettles =>
    -- no window of text has been read
    have hold := hsettles.old
    have hall := width_take_le_width w
    rename_i n' _ _ _
    have hread := hall n'
    omega
  | refused _ _ hlingers =>
    have hold := hlingers.old
    have hall := width_take_le_width w
    rename_i n' _ _ _
    have hread := hall n'
    rw [Engine.limit] at hold
    omega
  | again _ hle hwaits _ ih =>
    rename_i n keep n' rest calls answer _ _
    have hend := hwaits.le_length
    rw [List.length_take, Nat.min_eq_left hle] at hend
    refine ih fun place hlt => ?_
    by_cases hbefore : place < keep
    · exact hruled place hbefore
    · exact Engine.misses_of_failed hfinal (by omega) hle
        (hwaits.failed place (Nat.le_of_not_lt hbefore) hlt)

/-- The search from a place of a small text on finds what a search afresh does, and its mark lies in
    the stream. -/
theorem yields_small (hm : e.matcher.Near Excerpt.context)
    (hfinal : e.matcher.FinalOn (letters (w.drop k))) (hw : Utf8.codepoints stream = w)
    (hsmall : stream.length < e.window) (hk : k ≤ w.length) :
    Yields e stream w e.matcher.afresh (fun f => f.mark ≤ stream.length) k := by
  have hwidth : width w = stream.length := by rw [← hw, Utf8.width_codepoints]
  have hsplit := congrArg width (List.take_append_drop k w)
  rw [width_append] at hsplit
  have hrest : Utf8.codepoints (stream.drop (width (w.take k))) = w.drop k := by
    rw [← hw, Utf8.codepoints_drop]
  obtain ⟨calls, hturns, htape⟩ := Engine.turns_findNext (e := e) hm.toSearches (w.drop k)
  have hanswer := (hturns.seek hm (.inl rfl)).small hm.toSearches hfinal (by omega)
    fun place hlt => absurd hlt (Nat.not_lt_zero place)
  have hfind : e.findNext (tapeFrom stream (width (w.take k))) =
      (.ok ((e.matcher.search (letters (w.drop k)) 0).map (Span.inBytes (w.drop k))),
        Tape.after (w.drop k) calls) := by
    rw [tapeFrom, hrest]
    exact Prod.ext hanswer htape
  refine yields_of_findNext hm.toSearches hw hk ?_ hfind fun t _ => ?_
  · show (e.matcher.past k).search (letters w) k = _
    rw [Matcher.search_past (by rw [size_letters]; exact hk), letters_drop, Nat.sub_self]
  · have hread := width_take_le_width (w.drop k) (calls - 1)
    show width (w.take k) + width ((w.drop k).take (calls - 1)) ≤ stream.length
    omega

end

/-! ## The texts of matches -/

namespace Scan

/-- A pass that collects texts is a pass that collects matches. -/
theorem run_collectTexts {ε σ : Type} [ByteSource σ] [MatchEngine ε (Cursor σ)] (count : Nat)
    (found : List Match) (s : Scan ε σ) :
    s.run collectTexts count (found.map Match.text) =
      ((s.run collectMatches count found).1,
        (s.run collectMatches count found).2.1.map Match.text,
        (s.run collectMatches count found).2.2) := by
  induction count generalizing found s with
  | zero => rfl
  | succ count ih =>
    rw [run, run]
    rcases hadvance : s.advance with ⟨failure | _ | d, s₁⟩
    · rfl
    · rfl
    · simp only [collectTexts, collectMatches]
      by_cases hlast : count = 0
      · rw [if_pos hlast, if_pos hlast]
        rfl
      · rw [if_neg hlast, if_neg hlast]
        rcases hstep : Scan.stepPast
            ⟨s₁.engine, { s₁.cursor with source := s₁.cursor.source }⟩ d with ⟨failure | _ | _, s₂⟩
        · rfl
        · rfl
        · exact ih (d.found :: found) s₂

variable {σ : Type} [FiniteSource σ] {positional : Bool}

/-- What is returned when a pass finishes. -/
theorem findAll_of_outcome {s : Scan Engine σ} {matches_ : List Match}
    (h : s.outcome = (matches_, .finished)) : s.findAll.1 = .ok (matches_.map Match.text) := by
  have hrun := run_collectTexts s.bound [] s
  obtain ⟨hmatches, hending⟩ := Prod.mk.inj h
  rw [pass] at hmatches hending
  rw [List.map_nil, hending] at hrun
  rw [findAll, pass, hrun]
  simp only
  rw [← hmatches, List.map_reverse]

/-- The bytes between two places of an encoded text encode what lies between them. -/
theorem slice_encode (text : List Char) (first stop : Nat) :
    ((Utf8.encode text).drop (Utf8.encode (text.take first)).length).take
        ((Utf8.encode (text.take stop)).length - (Utf8.encode (text.take first)).length) =
      Utf8.encode ((text.drop first).take (stop - first)) := by
  have hfront : Utf8.encode text =
      Utf8.encode (text.take first) ++ Utf8.encode (text.drop first) := by
    rw [← Utf8.encode_append, List.take_append_drop]
  rw [hfront, List.drop_left]
  by_cases hle : first ≤ stop
  · have hpiece : Utf8.encode (text.drop first) =
        Utf8.encode ((text.drop first).take (stop - first)) ++
          Utf8.encode ((text.drop first).drop (stop - first)) := by
      rw [← Utf8.encode_append, List.take_append_drop]
    have hstop : text.take stop = text.take first ++ (text.drop first).take (stop - first) := by
      rw [← List.take_add, Nat.add_sub_cancel' hle]
    rw [hstop, Utf8.encode_append, List.length_append, Nat.add_sub_cancel_left, hpiece,
      List.take_left]
  · have hfirst : text.take first = text.take stop ++ (text.drop stop).take (first - stop) := by
      rw [← List.take_add, Nat.add_sub_cancel' (Nat.le_of_not_le hle)]
    rw [hfirst, Utf8.encode_append, List.length_append,
      Nat.sub_eq_zero_of_le (Nat.le_add_right _ _), Nat.sub_eq_zero_of_le (Nat.le_of_not_le hle)]
    rfl

/-- The text of a match in encoded text. -/
theorem text_toMatch (text : List Char) (s : Span) :
    ((s.inBytes (text.map fun c => ⟨c, c.utf8Size⟩)).toMatch (Utf8.encode text)).text =
      String.ofList ((text.drop s.start).take (s.stop - s.start)) := by
  have hwidth : ∀ n, width ((text.map fun c => (⟨c, c.utf8Size⟩ : Codepoint)).take n) =
      (Utf8.encode (text.take n)).length := by
    intro n
    rw [← List.map_take, ← Utf8.codepoints_encode, Utf8.width_codepoints]
  rw [Match.text, Span.toMatch, Span.inBytes]
  simp only [hwidth]
  rw [slice_encode, Utf8.text_encode]

/-- The characters of encoded text are the text. -/
theorem letters_encode (text : List Char) :
    letters (Utf8.codepoints (Utf8.encode text)) = text.toArray := by
  rw [Utf8.codepoints_encode, letters, List.map_map]
  exact congrArg List.toArray (List.map_id' text)

/-! ## Small streams -/

/-- What a scan of a small stream delivers: the matches that searches find which begin afresh. -/
theorem outcome_small {m : Matcher} (hm : m.Near Excerpt.context) (size : Int) {stream : Bytes}
    {source : σ} (hsource : WellBehaved positional stream source)
    (hsmall : stream.length < windowSize size)
    (hfinal : ∀ k, m.FinalOn (letters ((Utf8.codepoints stream).drop k))) :
    (ofMatcher m source size).outcome = (m.afresh.matchesOf stream, .finished) := by
  have hwindow : stream.length < (engineOf m size).window := by
    rw [window_engineOf]
    exact hsmall
  obtain ⟨findings, ending, hcourse, hlength⟩ :=
    exists_course (e := engineOf m size) hm.toSearches.confined (Utf8.place_zero stream)
  obtain ⟨rfl, hspans, hmarks⟩ := hcourse.spans (P := fun _ => True) rfl
    (fun k hk _ => yields_small (e := engineOf m size) hm (hfinal k) rfl hwindow hk)
    (fun _ _ _ _ _ => trivial) (Nat.zero_le _) rfl trivial
  have hdelivered := delivered_outcome hm.toSearches.confined size hsource hcourse hlength
  obtain ⟨hmatches, hending⟩ := hdelivered.complete fun f hf hlate => by
    have hmark := hmarks f hf
    rw [Finding.Late] at hlate
    omega
  exact Prod.ext (hmatches.trans (matchesOf_eq hspans).symm) hending

/-- A scan of a stream smaller than its window returns the texts that searches find which begin
    afresh after each match, provided that in no rest of the text a place that failed begins a
    match.  If the pattern does not look back, these are the matches of the whole text. -/
theorem findAll_small {m : Matcher} (hm : m.Near Excerpt.context) (size : Int) {text : List Char}
    {source : σ} (hsource : WellBehaved positional (Utf8.encode text) source)
    (hsmall : (Utf8.encode text).length < windowSize size)
    (hfinal : ∀ k, m.FinalOn (text.drop k).toArray) :
    (ofMatcher m source size).findAll.1 = .ok (m.afresh.textsOf text) ∧
      (m.Near 0 → (ofMatcher m source size).findAll.1 = .ok (m.textsOf text)) := by
  have hall : (ofMatcher m source size).findAll.1 = .ok (m.afresh.textsOf text) := by
    have hrests : ∀ k, m.FinalOn (letters ((Utf8.codepoints (Utf8.encode text)).drop k)) := by
      intro k
      rw [letters_drop, letters_encode, toArray_extract]
      exact hfinal k
    rw [findAll_of_outcome (outcome_small hm size hsource hsmall hrests), Matcher.matchesOf,
      Matcher.textsOf, letters_encode, List.map_map, Utf8.codepoints_encode]
    exact congrArg Except.ok (List.map_congr_left fun s _ => text_toMatch text s)
  refine ⟨hall, fun hnear => ?_⟩
  rw [hall, hnear.afresh_eq]

/-- Letters `a` and `b` in a row, as many as there are. -/
theorem findAll_small_word :
    (ofMatcher (Pattern.matcher ⟨.repeated ⟨1, none, .greedy⟩
        (.alt (.single (.code 97)) (.single (.code 98))), {}⟩)
      (Buffer.ofPayload (Utf8.encode ['a', 'b', 'é', 'b']) (some 1) false) 16).findAll.1 =
        .ok ["ab", "b"] := by
  have hsource : WellBehaved false (Utf8.encode ['a', 'b', 'é', 'b'])
      (Buffer.ofPayload (Utf8.encode ['a', 'b', 'é', 'b']) (some 1) false) :=
    Buffer.wellBehaved (by rintro _ ⟨⟩; decide) false _
  have hsteady : Matcher.Steady (Pattern.matcher ⟨.repeated ⟨1, none, .greedy⟩
      (.alt (.single (.code 97)) (.single (.code 98))), {}⟩) 0 := Pattern.steady rfl rfl
  obtain ⟨-, hwhole⟩ := findAll_small (hsteady.toNear.mono (Nat.zero_le _)) 16 hsource (by decide)
    fun k => hsteady.finalOn _
  rw [hwhole hsteady.toNear]
  decide +kernel

/-- A letter `b` that follows an `a`, or an `a`.  In the text `ab` both letters match, but the
    second search sees the `b` alone. -/
theorem findAll_afresh :
    WellBehaved false (Utf8.encode ['a', 'b'])
      (Buffer.ofPayload (Utf8.encode ['a', 'b']) none false) ∧
    Matcher.textsOf (Pattern.matcher ⟨.alt (.single (.code 97))
        (.seq (.behind false (.single (.code 97))) (.single (.code 98))), {}⟩) ['a', 'b'] =
      ["a", "b"] ∧
    (ofMatcher (Pattern.matcher ⟨.alt (.single (.code 97))
        (.seq (.behind false (.single (.code 97))) (.single (.code 98))), {}⟩)
      (Buffer.ofPayload (Utf8.encode ['a', 'b']) none false) 16).findAll.1 = .ok ["a"] :=
  ⟨Buffer.wellBehaved (by rintro _ ⟨⟩) false _, by decide +kernel, by decide +kernel⟩

end Scan

end StreamScan

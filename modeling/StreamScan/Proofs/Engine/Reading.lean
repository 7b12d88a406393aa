import StreamScan.Engine
import StreamScan.Proofs.Utf8.Decoding

/-!
# What a search reads, and what it holds of it

A search calls its reader a number of times and stops.  Which answer it gives depends on nothing
but the answers it gets, so a search may be studied on the plainest reader there is: a `Tape`, the
list of code points that are still to come together with the number of calls so far.

* **`findFrom_alikeUpTo`**, **`findFrom_alike`** — readers that answer alike lead a search to the
  same answer, and are left behind in states that belong together.
* **`findFrom_unless`** — a reader that may break off leads a search to the same answer, or to the
  failure that it breaks off with.
* **`Excerpt.of`** — the excerpt of a text that was read, from a place on.  Pushing, discarding and
  reading turn one into another, so the excerpt of a search always is one.
* **`pull_tape`** — what is read from a tape.
-/

namespace StreamScan

/-! ## Readers that answer alike -/

/-- Results that are the same but for their failures, and those belong together by `E`. -/
inductive SameUpTo (E : Failure → Failure → Prop) {α : Type} :
    Except Failure α → Except Failure α → Prop
  | ok (a : α) : SameUpTo E (.ok a) (.ok a)
  | error {f g : Failure} (h : E f g) : SameUpTo E (.error f) (.error g)

theorem SameUpTo.refl {E : Failure → Failure → Prop} (hrefl : ∀ f, E f f) {α : Type}
    (a : Except Failure α) : SameUpTo E a a := by
  cases a with
  | ok a => exact .ok a
  | error f => exact .error (hrefl f)

theorem SameUpTo.map {E : Failure → Failure → Prop} {α β : Type} {a b : Except Failure α}
    (h : SameUpTo E a b) (f : α → β) : SameUpTo E (a.map f) (b.map f) := by
  cases h with
  | ok a => exact .ok (f a)
  | error h => exact .error h

theorem SameUpTo.eq {α : Type} {a b : Except Failure α} (h : SameUpTo (· = ·) a b) : a = b := by
  cases h with
  | ok a => rfl
  | error h => rw [h]

/-- Readers related by `R` give the same answers, up to `E`, as long as there are code points, and
    with the first other answer they come into states related by `S`. -/
structure AnswerAlikeUpTo (E : Failure → Failure → Prop) {ρ ρ' : Type} [CodepointReader ρ]
    [CodepointReader ρ'] (R S : ρ → ρ' → Prop) : Prop where
  answer {r : ρ} {r' : ρ'} (h : R r r') :
    SameUpTo E (CodepointReader.next r).1 (CodepointReader.next r').1
  going {r : ρ} {r' : ρ'} {c : Codepoint} (h : R r r')
    (hsome : (CodepointReader.next r).1 = .ok (some c)) :
    R (CodepointReader.next r).2 (CodepointReader.next r').2
  last {r : ρ} {r' : ρ'} (h : R r r') : S (CodepointReader.next r).2 (CodepointReader.next r').2
  enough {r : ρ} {r' : ρ'} (h : R r r') : S r r'

/-- The same of readers whose failures are the same as well. -/
structure AnswerAlike {ρ ρ' : Type} [CodepointReader ρ] [CodepointReader ρ']
    (R S : ρ → ρ' → Prop) : Prop where
  answer {r : ρ} {r' : ρ'} (h : R r r') : (CodepointReader.next r).1 = (CodepointReader.next r').1
  going {r : ρ} {r' : ρ'} {c : Codepoint} (h : R r r')
    (hsome : (CodepointReader.next r).1 = .ok (some c)) :
    R (CodepointReader.next r).2 (CodepointReader.next r').2
  last {r : ρ} {r' : ρ'} (h : R r r') : S (CodepointReader.next r).2 (CodepointReader.next r').2
  enough {r : ρ} {r' : ρ'} (h : R r r') : S r r'

theorem AnswerAlike.upTo {ρ ρ' : Type} [CodepointReader ρ] [CodepointReader ρ']
    {R S : ρ → ρ' → Prop} (h : AnswerAlike R S) : AnswerAlikeUpTo (· = ·) R S where
  answer hr := by
    rw [h.answer hr]
    exact .refl (fun _ => rfl) _
  going := h.going
  last := h.last
  enough := h.enough

namespace Excerpt

variable {ρ ρ' : Type} [CodepointReader ρ] [CodepointReader ρ'] {R S : ρ → ρ' → Prop}
  {E : Failure → Failure → Prop}

/-- Reading from readers that answer alike brings the same. -/
theorem pull_alike (h : AnswerAlikeUpTo E R S) (count : Nat) {x : Excerpt} {r : ρ} {r' : ρ'}
    (hr : R r r') :
    SameUpTo E (x.pull count r).1 (x.pull count r').1 ∧
      (x.pull count r).2.1 = (x.pull count r').2.1 ∧
      S (x.pull count r).2.2 (x.pull count r').2.2 ∧
      ((x.pull count r).1 = .ok false → R (x.pull count r).2.2 (x.pull count r').2.2) := by
  induction count generalizing x r r' with
  | zero => exact ⟨.ok false, rfl, h.enough hr, fun _ => hr⟩
  | succ count ih =>
    have hanswer := h.answer hr
    have hover := h.last hr
    rw [pull, pull]
    rcases hnext : CodepointReader.next r with ⟨answer, s⟩
    rcases hnext' : CodepointReader.next r' with ⟨answer', s'⟩
    rw [hnext, hnext'] at hanswer hover
    cases hanswer with
    | error hfailure => exact ⟨.error hfailure, rfl, hover, fun hclean => by cases hclean⟩
    | ok point =>
      cases point with
      | none => exact ⟨.ok true, rfl, hover, fun hmore => by cases hmore⟩
      | some c =>
        have hgoing := h.going (c := c) hr (by rw [hnext])
        rw [hnext, hnext'] at hgoing
        exact ih hgoing

end Excerpt

namespace Engine

variable {ρ : Type} [FiniteReader ρ] {e : Engine} {x x' : Excerpt} {r s : ρ}

/-! ## One turn of a search -/

theorem findFrom_error {failure : Failure}
    (h : x.pull (e.pullCount x) r = (.error failure, x', s)) :
    e.findFrom x r = (.error failure, s) := by
  rw [findFrom]
  split <;> simp_all

theorem findFrom_ended (h : x.pull (e.pullCount x) r = (.ok true, x', s)) :
    e.findFrom x r = (.ok (e.conclude x'), s) := by
  rw [findFrom]
  split <;> simp_all

theorem findFrom_found {span : Span} (h : x.pull (e.pullCount x) r = (.ok false, x', s))
    (hjudge : e.judge x' = .found span) : e.findFrom x r = (.ok (some span), s) := by
  rw [findFrom]
  split <;> simp_all

theorem findFrom_refused {failure : Failure}
    (h : x.pull (e.pullCount x) r = (.ok false, x', s))
    (hjudge : e.judge x' = .refused failure) : e.findFrom x r = (.error failure, s) := by
  rw [findFrom]
  split <;> simp_all

theorem findFrom_undecided {rest : Excerpt} (h : x.pull (e.pullCount x) r = (.ok false, x', s))
    (hjudge : e.judge x' = .undecided rest) : e.findFrom x r = e.findFrom rest s := by
  rw [findFrom]
  split <;> simp_all

/-- A search through readers that answer alike comes to the same answer. -/
theorem findFrom_alikeUpTo {E : Failure → Failure → Prop} (hrefl : ∀ f, E f f) {ρ' : Type}
    [FiniteReader ρ'] {R S : ρ → ρ' → Prop} (h : AnswerAlikeUpTo E R S) {r' : ρ'} (hr : R r r') :
    SameUpTo E (e.findFrom x r).1 (e.findFrom x r').1 ∧
      S (e.findFrom x r).2 (e.findFrom x r').2 := by
  -- each turn uses up the reader
  induction hn : FiniteReader.remaining r using Nat.strongRecOn generalizing x r r' with
  | ind n ih =>
    obtain ⟨hanswer, hexcerpt, hover, hgoing⟩ := x.pull_alike h (e.pullCount x) hr
    rcases hpull : x.pull (e.pullCount x) r with ⟨answer, x₁, r₁⟩
    rcases hpull' : x.pull (e.pullCount x) r' with ⟨answer', x₁', r₁'⟩
    rw [hpull, hpull'] at hanswer hexcerpt hover
    rw [hpull, hpull'] at hgoing
    simp only at hanswer hexcerpt hover hgoing
    subst hexcerpt
    cases hanswer with
    | error hfailure =>
      rw [findFrom_error hpull, findFrom_error hpull']
      exact ⟨.error hfailure, hover⟩
    | ok ended =>
      cases ended with
      | true =>
        rw [findFrom_ended hpull, findFrom_ended hpull']
        exact ⟨.ok _, hover⟩
      | false =>
        have hless := Excerpt.pull_remaining hpull
        have hcount := e.pullCount_pos x
        cases hjudge : e.judge x₁ with
        | found span =>
          rw [findFrom_found hpull hjudge, findFrom_found hpull' hjudge]
          exact ⟨.ok _, hover⟩
        | refused failure =>
          rw [findFrom_refused hpull hjudge, findFrom_refused hpull' hjudge]
          exact ⟨.error (hrefl failure), hover⟩
        | undecided rest =>
          rw [findFrom_undecided hpull hjudge, findFrom_undecided hpull' hjudge]
          exact ih _ (by omega) (hgoing rfl) rfl

theorem findFrom_alike {ρ' : Type} [FiniteReader ρ'] {R S : ρ → ρ' → Prop}
    (h : AnswerAlike R S) {r' : ρ'} (hr : R r r') :
    (e.findFrom x r).1 = (e.findFrom x r').1 ∧ S (e.findFrom x r).2 (e.findFrom x r').2 := by
  obtain ⟨hanswer, hover⟩ := findFrom_alikeUpTo (e := e) (x := x) (fun _ => rfl) h.upTo hr
  exact ⟨hanswer.eq, hover⟩

end Engine

/-! ## Readers that break off -/

/-- Readers related by `R` give the same answers, unless the first breaks off with a failure. -/
def AnswerUnlessFailing {ρ ρ' : Type} [CodepointReader ρ] [CodepointReader ρ']
    (R : ρ → ρ' → Prop) : Prop :=
  ∀ ⦃r : ρ⦄ ⦃r' : ρ'⦄, R r r' → (∃ failure s, CodepointReader.next r = (.error failure, s)) ∨
    ∃ answer s s', CodepointReader.next r = (.ok answer, s) ∧
      CodepointReader.next r' = (.ok answer, s') ∧ R s s'

/-- What is read is the same, unless the first reader breaks off. -/
theorem Excerpt.pull_unless {ρ ρ' : Type} [CodepointReader ρ] [CodepointReader ρ']
    {R : ρ → ρ' → Prop} (h : AnswerUnlessFailing R) (count : Nat) {x : Excerpt} {r : ρ} {r' : ρ'}
    (hr : R r r') :
    (∃ failure x' s, x.pull count r = (.error failure, x', s)) ∨
    ∃ ended x' s s', x.pull count r = (.ok ended, x', s) ∧ x.pull count r' = (.ok ended, x', s') ∧
      R s s' := by
  induction count generalizing x r r' with
  | zero => exact Or.inr ⟨false, x, r, r', rfl, rfl, hr⟩
  | succ count ih =>
    rw [pull, pull]
    rcases h hr with ⟨failure, s, hnext⟩ | ⟨_ | point, s, s', hnext, hnext', hs⟩
    · exact Or.inl ⟨failure, x, s, by rw [hnext]⟩
    · exact Or.inr ⟨true, x, s, s', by rw [hnext], by rw [hnext'], hs⟩
    · rw [hnext, hnext']
      exact ih hs

/-- A search comes to the same answer, unless the first reader breaks off. -/
theorem Engine.findFrom_unless {ρ ρ' : Type} [FiniteReader ρ] [FiniteReader ρ']
    {R : ρ → ρ' → Prop} (h : AnswerUnlessFailing R) {e : Engine} {x : Excerpt} {r : ρ} {r' : ρ'}
    (hr : R r r') :
    (∃ failure s, e.findFrom x r = (.error failure, s)) ∨
    ∃ answer s s', e.findFrom x r = (answer, s) ∧ e.findFrom x r' = (answer, s') ∧ R s s' := by
  -- each turn uses up the reader
  induction hn : FiniteReader.remaining r using Nat.strongRecOn generalizing x r r' with
  | ind n ih =>
    rcases x.pull_unless h (e.pullCount x) hr with
      ⟨failure, x', s, hpull⟩ | ⟨ended, x', s, s', hpull, hpull', hs⟩
    · exact Or.inl ⟨failure, s, findFrom_error hpull⟩
    · cases ended with
      | true =>
        exact Or.inr ⟨_, s, s', findFrom_ended hpull, findFrom_ended hpull', hs⟩
      | false =>
        have hless := Excerpt.pull_remaining hpull
        have hcount := e.pullCount_pos x
        cases hjudge : e.judge x' with
        | found span =>
          exact Or.inr ⟨_, s, s', findFrom_found hpull hjudge, findFrom_found hpull' hjudge, hs⟩
        | refused failure =>
          exact Or.inr
            ⟨_, s, s', findFrom_refused hpull hjudge, findFrom_refused hpull' hjudge, hs⟩
        | undecided rest =>
          rw [findFrom_undecided hpull hjudge, findFrom_undecided hpull' hjudge]
          exact ih _ (by omega) hs rfl

/-! ## Tapes -/

/-- The code points that are still to come, and how often a reader was called. -/
structure Tape where
  rest : List Codepoint
  calls : Nat

namespace Tape

/-- The tape of a text after so many calls. -/
def after (w : List Codepoint) (calls : Nat) : Tape := ⟨w.drop calls, calls⟩

/-- A tape delivers its code points in order and then says that there are no more. -/
instance : FiniteReader Tape where
  next t :=
    match t.rest with
    | [] => (.ok none, ⟨[], t.calls + 1⟩)
    | c :: rest => (.ok (some c), ⟨rest, t.calls + 1⟩)
  remaining t := t.rest.length
  remaining_next {t t' c} h := by
    obtain ⟨_ | ⟨d, rest⟩, calls⟩ := t
    · exact nomatch h
    · obtain ⟨-, rfl⟩ := Prod.mk.inj h
      exact Nat.lt_succ_self _

/-- A call delivers the next code point, if there is one. -/
theorem next_after (w : List Codepoint) (n : Nat) :
    CodepointReader.next (after w n) = (.ok w[n]?, after w (n + 1)) := by
  by_cases hn : n < w.length
  · show (match w.drop n with | [] => _ | c :: rest => _ : Except _ _ × Tape) = _
    rw [List.drop_eq_getElem_cons hn, List.getElem?_eq_getElem hn]
    rfl
  · have hend : w.drop n = [] := List.drop_eq_nil_of_le (Nat.le_of_not_lt hn)
    have hend' : w.drop (n + 1) = [] := List.drop_eq_nil_of_le (by omega)
    rw [List.getElem?_eq_none (Nat.le_of_not_lt hn), after, after, hend, hend']
    rfl

end Tape

/-! ## The excerpt of a text -/

/-- The characters of a text. -/
def letters (w : List Codepoint) : Array Char := (w.map (·.char)).toArray

@[simp] theorem size_letters (w : List Codepoint) : (letters w).size = w.length := by
  rw [letters, List.size_toArray, List.length_map]

theorem letters_append (v w : List Codepoint) : letters (v ++ w) = letters v ++ letters w := by
  rw [letters, List.map_append, List.append_toArray, letters, letters]

theorem toArray_extract {α : Type} (l : List α) (n : Nat) :
    l.toArray.extract n = (l.drop n).toArray := by
  apply Array.toList_inj.mp
  rw [Array.toList_extract, List.extract_eq_take_drop]
  exact List.take_of_length_le (by simp)

theorem letters_drop (w : List Codepoint) (n : Nat) :
    letters (w.drop n) = (letters w).extract n := by
  rw [letters, letters, toArray_extract, List.map_drop]

theorem letters_take (w : List Codepoint) (n : Nat) :
    letters (w.take n) = (letters w).extract 0 n := by
  rw [letters, letters, List.extract_toArray, List.extract_eq_take_drop, List.drop_zero,
    Nat.sub_zero, List.map_take]

/-- How many bytes of a text come after a place, up to the `n`-th code point. -/
def aged (w : List Codepoint) (n place : Nat) : Nat := width (w.take n) - width (w.take place)

/-- A stretch of a text by the bytes in front of its ends. -/
def Span.inBytes (w : List Codepoint) (s : Span) : Span :=
  ⟨width (w.take s.start), width (w.take s.stop)⟩

theorem Span.inBytes_take {w : List Codepoint} {s : Span} {n : Nat} (hstart : s.start ≤ n)
    (hstop : s.stop ≤ n) : s.inBytes (w.take n) = s.inBytes w := by
  rw [inBytes, List.take_take, List.take_take, Nat.min_eq_left hstart, Nat.min_eq_left hstop]
  rfl

namespace Excerpt

/-- The excerpt of a text from a place on.  The place to keep is counted in the whole text. -/
def of (v : List Codepoint) (cut keep : Nat) : Excerpt where
  chars := letters (v.drop cut)
  offsets := ((List.range' cut (v.length + 1 - cut)).map fun i => width (v.take i)).toArray
  keep := keep - cut

variable {v : List Codepoint} {cut keep place : Nat}

theorem size_chars_of : (of v cut keep).chars.size = v.length - cut := by
  rw [of, size_letters, List.length_drop]

theorem size_offsets_of (hcut : cut ≤ v.length) :
    (of v cut keep).offsets.size = v.length - cut + 1 := by
  rw [of, List.size_toArray, List.length_map, List.length_range']
  omega

theorem getElem?_offsets_of (hcut : cut ≤ place) (hplace : place ≤ v.length) :
    (of v cut keep).offsets[place - cut]? = some (width (v.take place)) := by
  have hlt : place - cut < v.length + 1 - cut := by omega
  have hback : cut + 1 * (place - cut) = place := by omega
  rw [of, List.getElem?_toArray, List.getElem?_map, List.getElem?_range' hlt, hback]
  rfl

theorem offset_of (hcut : cut ≤ place) (hplace : place ≤ v.length) :
    (of v cut keep).offset (place - cut) = width (v.take place) := by
  rw [offset, Array.getD_eq_getD_getElem?, getElem?_offsets_of hcut hplace]
  rfl

theorem frontier_of (hcut : cut ≤ v.length) : (of v cut keep).frontier = width v := by
  rw [frontier, size_offsets_of hcut, Nat.add_sub_cancel, offset_of hcut (Nat.le_refl _),
    List.take_length]

theorem age_of (hcut : cut ≤ place) (hplace : place ≤ v.length) :
    (of v cut keep).age (place - cut) = width v - width (v.take place) := by
  rw [age, frontier_of (Nat.le_trans hcut hplace), offset_of hcut hplace]

theorem located_of {s : Span} (hstart : s.start + cut ≤ v.length)
    (hstop : s.stop + cut ≤ v.length) :
    (of v cut keep).located s = Span.inBytes v ⟨s.start + cut, s.stop + cut⟩ := by
  have hbegin : (of v cut keep).offset s.start = width (v.take (s.start + cut)) := by
    rw [← offset_of (Nat.le_add_left cut s.start) hstart, Nat.add_sub_cancel]
  have hfinish : (of v cut keep).offset s.stop = width (v.take (s.stop + cut)) := by
    rw [← offset_of (Nat.le_add_left cut s.stop) hstop, Nat.add_sub_cancel]
  rw [located, hbegin, hfinish]
  rfl

theorem push_of (hcut : cut ≤ v.length) (c : Codepoint) :
    (of v cut keep).push c = of (v ++ [c]) cut keep := by
  have hcount : (v ++ [c]).length + 1 - cut = v.length + 1 - cut + 1 := by
    rw [List.length_append, List.length_singleton]
    omega
  have hlast : cut + (v.length + 1 - cut) = (v ++ [c]).length := by
    rw [List.length_append, List.length_singleton]
    omega
  have hoffsets : (List.range' cut (v.length + 1 - cut)).map (fun i => width ((v ++ [c]).take i)) =
      (List.range' cut (v.length + 1 - cut)).map fun i => width (v.take i) := by
    refine List.map_congr_left fun i hi => ?_
    rw [List.mem_range'_1] at hi
    rw [List.take_append_of_le_length (by omega)]
  rw [push, frontier_of hcut, of, of]
  simp only [Excerpt.mk.injEq, and_true]
  constructor
  · rw [List.drop_append_of_le_length hcut, letters_append]
    rfl
  · rw [hcount, List.range'_concat, List.map_append, hoffsets, Nat.one_mul, hlast]
    simp only [List.map_cons, List.map_nil, List.take_length, width_append, width_cons, width_nil,
      Nat.add_zero]
    rw [List.push_toArray]

/-- What stays when everything before a place is discarded. -/
theorem discard_of (hcut : cut ≤ place) (hplace : place ≤ v.length) :
    (of v cut keep).discard (place - cut) = of v (max cut (place - context)) place := by
  have hmax : max cut (place - context) = cut + (place - cut - context) := by omega
  have hkeep : place - cut - (place - cut - context) =
      place - (cut + (place - cut - context)) := by omega
  have hsplit : List.range' cut (place - cut - context) ++
      List.range' (cut + (place - cut - context))
        (v.length + 1 - (cut + (place - cut - context))) =
      List.range' cut (v.length + 1 - cut) := by
    rw [List.range'_append_1]
    congr 1
    omega
  rw [discard, of, of, hmax, hkeep]
  simp only [Excerpt.mk.injEq, and_true]
  constructor
  · rw [← letters_drop, List.drop_drop]
  · rw [toArray_extract, ← List.map_drop, ← hsplit,
      List.drop_left' (List.length_range' (s := cut))]

/-- What is read from a tape: so many code points, or the rest of the text and its end. -/
theorem pull_tape {w : List Codepoint} {n : Nat} (hcut : cut ≤ n) (hn : n ≤ w.length)
    (count : Nat) :
    (of (w.take n) cut keep).pull count (Tape.after w n) =
      if n + count ≤ w.length then
        (.ok false, of (w.take (n + count)) cut keep, Tape.after w (n + count))
      else (.ok true, of w cut keep, Tape.after w (w.length + 1)) := by
  induction count generalizing n with
  | zero => rw [Nat.add_zero, if_pos hn, pull]
  | succ count ih =>
    rw [pull, Tape.next_after]
    by_cases hmore : n < w.length
    · have hpush : (of (w.take n) cut keep).push w[n] = of (w.take (n + 1)) cut keep := by
        rw [push_of (by rw [List.length_take, Nat.min_eq_left hn]; exact hcut),
          List.take_append_getElem hmore]
      rw [List.getElem?_eq_getElem hmore]
      simp only
      rw [hpush, ih (n := n + 1) (Nat.le_succ_of_le hcut) hmore,
        show n + 1 + count = n + (count + 1) by omega]
    · have hlast : n = w.length := by omega
      rw [List.getElem?_eq_none (Nat.le_of_not_lt hmore), if_neg (by omega), hlast,
        List.take_length]

end Excerpt

end StreamScan

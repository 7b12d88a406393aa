import StreamScan.Pattern.Search

/-!
# Matching goes forward

What a match comes to is decided by what remains to be matched after it.  So the outcome of an
expression is a refusal, or the exhaustion of a text that may grow, or whatever the rest says of
some state, and that state lies no further back than the one before and inside the text.

From this follows that a search may leave out the places that `Expr.places` does not count: a
match that begins there would have to take a character that no longer comes.

* **`Way.Forward`** — the property of ways that says so, kept by each way to combine them.
* **`run_forward`** — every expression has it.
* **`run_of_places_le`** — a place that is not counted begins no match.
-/

namespace StreamScan.Pattern

/-- The outcome is a refusal, or exhaustion if the text may grow, or what the rest says of a state
    between this one and the end of the text. -/
def Way.Forward (x : Subject) (way : Way) : Prop :=
  ∀ (s : State) (rest : Rest), way s rest = .refused ∨
    (x.mayGrow = true ∧ way s rest = .exhausted) ∨
      ∃ t : State, s.index ≤ t.index ∧ t.index ≤ max s.index x.text.size ∧ way s rest = rest t

namespace Way

variable {x : Subject}

/-! ## One character after the other -/

theorem forward_rest : Forward x fun s rest => rest s := by
  intro s rest
  exact .inr (.inr ⟨s, Nat.le_refl _, Nat.le_max_left _ _, rfl⟩)

/-- Going on from a state that a forward way has reached. -/
theorem Forward.step {first : Way} (hfirst : Forward x first) {s : State} {k rest : Rest}
    (hk : ∀ t, s.index ≤ t.index → t.index ≤ max s.index x.text.size →
      k t = .refused ∨ (x.mayGrow = true ∧ k t = .exhausted) ∨
        ∃ u : State, t.index ≤ u.index ∧ u.index ≤ max t.index x.text.size ∧ k t = rest u) :
    first s k = .refused ∨ (x.mayGrow = true ∧ first s k = .exhausted) ∨
      ∃ u : State, s.index ≤ u.index ∧ u.index ≤ max s.index x.text.size ∧ first s k = rest u := by
  rcases hfirst s k with h | h | ⟨t, hst, htx, h⟩
  · exact .inl h
  · exact .inr (.inl h)
  · rw [h]
    rcases hk t hst htx with hr | hr | ⟨u, htu, hux, hr⟩
    · exact .inl hr
    · exact .inr (.inl hr)
    · refine .inr (.inr ⟨u, Nat.le_trans hst htu, ?_, hr⟩)
      omega

theorem forward_seq {first second : Way} (hfirst : Forward x first) (hsecond : Forward x second) :
    Forward x fun s rest => first s fun s => second s rest := by
  intro s rest
  exact hfirst.step fun t _ _ => hsecond t rest

theorem forward_orElse {first second : Way} (hfirst : Forward x first)
    (hsecond : Forward x second) :
    Forward x fun s rest => (first s rest).orElse fun _ => second s rest := by
  intro s rest
  rcases hfirst s rest with h | ⟨hx, h⟩ | ⟨t, hst, htx, h⟩
  · simp only [h, Outcome.orElse]
    exact hsecond s rest
  · simp only [h, Outcome.orElse]
    exact .inr (.inl ⟨hx, trivial⟩)
  · simp only [h]
    cases hr : rest t with
    | refused => exact hsecond s rest
    | exhausted => exact .inr (.inr ⟨t, hst, htx, hr.symm⟩)
    | matched u => exact .inr (.inr ⟨t, hst, htx, hr.symm⟩)

/-! ## Repetition -/

theorem forward_times {way : Way} (h : Forward x way) (n : Nat) : Forward x (times way n) := by
  induction n with
  | zero => exact forward_rest
  | succ n ih => exact fun s rest => forward_seq h ih s rest

theorem forward_greedy {way : Way} (h : Forward x way) (n : Nat) : Forward x (greedy way n) := by
  induction n with
  | zero => exact forward_rest
  | succ n ih =>
    refine forward_orElse (fun s rest => h.step fun t hst _ => ?_) forward_rest
    by_cases hindex : t.index = s.index
    · rw [if_pos hindex]
      exact .inl rfl
    · rw [if_neg hindex]
      exact ih t rest

theorem forward_reluctant {way : Way} (h : Forward x way) (n : Nat) :
    Forward x (reluctant way n) := by
  induction n with
  | zero => exact forward_rest
  | succ n ih =>
    refine forward_orElse forward_rest fun s rest => h.step fun t hst _ => ?_
    by_cases hindex : t.index = s.index
    · rw [if_pos hindex]
      exact .inl rfl
    · rw [if_neg hindex]
      exact ih t rest

/-! ## Commitment and looking around -/

theorem forward_commit {way : Way} (h : Forward x way) : Forward x way.commit := by
  intro s rest
  rw [commit]
  rcases h s .matched with hs | ⟨hx, hs⟩ | ⟨t, hst, htx, hs⟩
  · rw [hs]
    exact .inl rfl
  · rw [hs]
    exact .inr (.inl ⟨hx, rfl⟩)
  · rw [hs]
    exact .inr (.inr ⟨t, hst, htx, rfl⟩)

theorem forward_repeated {way : Way} (h : Forward x way) (size : Nat) (q : Quantifier) :
    Forward x (way.repeated size q) := by
  have htimes := forward_times h q.least
  unfold repeated
  intro s rest
  cases q.mode with
  | greedy => exact forward_seq htimes (fun t => forward_greedy h _ t) s rest
  | reluctant => exact forward_seq htimes (fun t => forward_reluctant h _ t) s rest
  | possessive =>
    exact forward_commit (forward_seq htimes (fun t => forward_greedy h _ t)) s rest

/-- What comes of looking says whether to go on, and the rest goes on from the same index. -/
theorem look_eq (way : Way) (negative : Bool) (s : State) (rest : Rest) :
    look way negative s rest = .refused ∨
      (way s .matched = .exhausted ∧ look way negative s rest = .exhausted) ∨
        ∃ t : State, t.index = s.index ∧ look way negative s rest = rest t := by
  unfold look
  cases hs : way s .matched with
  | exhausted => exact .inr (.inl ⟨rfl, by cases negative <;> rfl⟩)
  | refused =>
    cases negative with
    | true => exact .inr (.inr ⟨s, rfl, rfl⟩)
    | false => exact .inl rfl
  | matched t =>
    cases negative with
    | true => exact .inl rfl
    | false => exact .inr (.inr ⟨{ t with index := s.index }, rfl, rfl⟩)

theorem forward_look {way : Way} {negative : Bool}
    (h : ∀ s, way s .matched = .exhausted → x.mayGrow = true) :
    Forward x (way.look negative) := by
  intro s rest
  rcases look_eq way negative s rest with hs | ⟨hend, hs⟩ | ⟨t, hindex, hs⟩
  · exact .inl hs
  · exact .inr (.inl ⟨h s hend, hs⟩)
  · refine .inr (.inr ⟨t, Nat.le_of_eq hindex.symm, ?_, hs⟩)
    omega

/-- A forward way is exhausted only in a text that may grow. -/
theorem Forward.mayGrow {way : Way} (h : Forward x way) {s : State}
    (hs : way s .matched = .exhausted) : x.mayGrow = true := by
  rcases h s .matched with hr | ⟨hx, -⟩ | ⟨t, -, -, hr⟩
  · rw [hr] at hs
    cases hs
  · exact hx
  · rw [hr] at hs
    cases hs

/-- What ends at an index is never exhausted in a text that does not grow. -/
theorem endingHere_ne_exhausted {way : Way} (h : Forward x way) (hx : x.mayGrow = false)
    (starts : List Nat) (s : State) : way.endingHere starts s .matched ≠ .exhausted := by
  induction starts with
  | nil => exact fun hs => by cases hs
  | cons first more ih =>
    intro hs
    rw [endingHere] at hs
    rcases h { s with index := first } fun t =>
        if t.index = s.index then .matched t else .refused with hr | ⟨hgrow, -⟩ | ⟨t, -, -, hr⟩
    · rw [hr] at hs
      exact ih hs
    · rw [hx] at hgrow
      cases hgrow
    · rw [hr] at hs
      by_cases hindex : t.index = s.index
      · rw [if_pos hindex] at hs
        cases hs
      · rw [if_neg hindex] at hs
        exact ih hs

end Way

/-! ## Expressions -/

theorem take_forward (x : Subject) (what : Single) : Way.Forward x (x.take what) := by
  intro s rest
  rw [Subject.take]
  cases hc : x.text[s.index]? with
  | none =>
    cases hx : x.mayGrow with
    | true => exact .inr (.inl ⟨rfl, rfl⟩)
    | false => exact .inl rfl
  | some c =>
    have hlt : s.index < x.text.size := (Array.getElem?_eq_some_iff.1 hc).1
    by_cases haccepts : x.flags.accepts c what = true
    · simp only [haccepts, if_true]
      refine .inr (.inr ⟨{ s with index := s.index + 1 }, Nat.le_succ _, ?_, rfl⟩)
      simp only
      omega
    · simp only [haccepts]
      exact .inl rfl

theorem takeAll_forward (x : Subject) (cs : List Char) : Way.Forward x (x.takeAll cs) := by
  induction cs with
  | nil => exact Way.forward_rest
  | cons c cs ih =>
    exact fun s rest => Way.forward_seq (take_forward x (.code c.toNat)) ih s rest

/-- The outcome of an expression is a refusal, or exhaustion if the text may grow, or what the rest
    says of a state between this one and the end of the text. -/
theorem run_forward (e : Expr) (x : Subject) : Way.Forward x (e.run x) := by
  induction e generalizing x with
  | empty => exact Way.forward_rest
  | single what => exact take_forward x what
  | anchor condition =>
    intro s rest
    unfold Expr.run
    by_cases h : x.holds s.index condition = true
    · rw [if_pos h]
      exact Way.forward_rest s rest
    · rw [if_neg h]
      exact .inl rfl
  | seq first second ihfirst ihsecond =>
    exact fun s rest => Way.forward_seq (ihfirst x) (ihsecond x) s rest
  | alt first second ihfirst ihsecond =>
    exact fun s rest => Way.forward_orElse (ihfirst x) (ihsecond x) s rest
  | capture group body ih =>
    intro s rest
    exact (ih x).step fun t _ _ => .inr (.inr ⟨t.record group s.index, Nat.le_refl _,
      Nat.le_max_left _ _, rfl⟩)
  | again group =>
    intro s rest
    unfold Expr.run
    cases s.lastTaken? group with
    | none => exact .inl rfl
    | some stretch => exact takeAll_forward x _ s rest
  | repeated q body ih => exact Way.forward_repeated (ih x) _ q
  | atomic body ih => exact Way.forward_commit (ih x)
  | ahead negative body ih => exact Way.forward_look fun s hs => (ih x).mayGrow hs
  | behind negative body ih =>
    intro s rest
    exact Way.forward_look (fun t ht =>
      absurd ht (Way.endingHere_ne_exhausted (ih { x with mayGrow := false }) rfl _ t)) s rest

/-! ## Where a match can begin -/

theorem lt_placesBefore {x : Subject} {what : Single} {index count : Nat} {c : Char}
    (hc : x.text[index]? = some c) (haccepts : x.flags.accepts c what = true)
    (hlt : index < count) : index < x.placesBefore what count := by
  induction count with
  | zero => exact absurd hlt (Nat.not_lt_zero _)
  | succ count ih =>
    rw [Subject.placesBefore]
    rcases Nat.lt_or_eq_of_le (Nat.le_of_lt_succ hlt) with hless | heq
    · have hrest := ih hless
      split
      · split
        · omega
        · exact hrest
      · exact hrest
    · rw [← heq, hc]
      simp only [haccepts, if_true]
      omega

theorem take_of_places_le {x : Subject} {what : Single} (hx : x.mayGrow = false) {s : State}
    {rest : Rest} (h : x.placesBefore what x.text.size ≤ s.index) :
    x.take what s rest = .refused := by
  rw [Subject.take]
  cases hc : x.text[s.index]? with
  | none => rw [hx]; rfl
  | some c =>
    have hlt : s.index < x.text.size := (Array.getElem?_eq_some_iff.1 hc).1
    by_cases haccepts : x.flags.accepts c what = true
    · exact absurd (lt_placesBefore hc haccepts hlt) (by omega)
    · simp only [haccepts]
      rfl

theorem placesBefore_le (x : Subject) (what : Single) (count : Nat) :
    x.placesBefore what count ≤ count := by
  induction count with
  | zero => exact Nat.le_refl _
  | succ count ih =>
    rw [Subject.placesBefore]
    split
    · split
      · exact Nat.le_refl _
      · exact Nat.le_succ_of_le ih
    · exact Nat.le_succ_of_le ih

/-- No more places are counted than there are, the end of the text being one. -/
theorem places_le (e : Expr) (x : Subject) : e.places x ≤ x.text.size + 1 := by
  induction e with
  | empty | anchor | again | ahead | behind => exact Nat.le_refl _
  | single what => exact Nat.le_succ_of_le (placesBefore_le x what _)
  | seq first second ihfirst ihsecond =>
    exact Nat.le_trans (Nat.min_le_left _ _) ihfirst
  | alt first second ihfirst ihsecond => exact Nat.max_le.2 ⟨ihfirst, ihsecond⟩
  | capture group body ih => exact ih
  | atomic body ih => exact ih
  | repeated q body ih =>
    simp only [Expr.places]
    split
    · exact Nat.le_refl _
    · exact ih

/-- A place that is not counted begins no match in a text that does not grow. -/
theorem run_of_places_le {e : Expr} {x : Subject} (hx : x.mayGrow = false) {s : State}
    {rest : Rest} (hs : s.index ≤ x.text.size) (h : e.places x ≤ s.index) :
    e.run x s rest = .refused := by
  induction e generalizing s rest with
  | empty | anchor | again | ahead | behind =>
    simp only [Expr.places] at h
    omega
  | single what => exact take_of_places_le hx h
  | seq first second ihfirst ihsecond =>
    simp only [Expr.places] at h
    by_cases hfirst : first.places x ≤ s.index
    · exact ihfirst hs hfirst
    · have hsecond : second.places x ≤ s.index := by omega
      rcases run_forward first x s fun t => second.run x t rest with hr | ⟨hgrow, -⟩ |
        ⟨t, hst, htx, hr⟩
      · exact hr
      · rw [hx] at hgrow
        cases hgrow
      · refine hr.trans (ihsecond ?_ ?_) <;> omega
  | alt first second ihfirst ihsecond =>
    simp only [Expr.places] at h
    have hfirst : first.run x s rest = .refused := ihfirst hs (by omega)
    have hsecond : second.run x s rest = .refused := ihsecond hs (by omega)
    simp only [Expr.run, hfirst, hsecond, Outcome.orElse]
  | capture group body ih => exact ih hs h
  | atomic body ih =>
    have hbody : body.run x s .matched = .refused := ih hs h
    simp only [Expr.run, Way.commit, hbody, Outcome.andThen]
  | repeated q body ih =>
    simp only [Expr.places] at h
    by_cases hleast : q.least = 0
    · rw [if_pos hleast] at h
      omega
    · rw [if_neg hleast] at h
      obtain ⟨n, hn⟩ := Nat.exists_eq_succ_of_ne_zero hleast
      have htimes : ∀ k : Rest, (body.run x).times q.least s k = .refused := by
        intro k
        rw [hn]
        exact ih hs h
      simp only [Expr.run, Way.repeated]
      cases q.mode with
      | greedy => exact htimes _
      | reluctant => exact htimes _
      | possessive => simp only [htimes, Outcome.andThen]

end StreamScan.Pattern

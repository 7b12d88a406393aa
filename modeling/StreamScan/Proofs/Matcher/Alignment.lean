import StreamScan.Proofs.Matcher.Laws

/-!
# One text, seen twice

What a pattern makes of a text should not change when the text is continued or when characters far
in front of it are dropped.  Both are said at once, of two texts of which the second lacks some
characters at the front (`Overlaps`): if nothing else is different, matching comes to the same in
both; and if the second goes on where the first may grow, then it comes to the same unless the first
left it open.

Matching calls what remains to be matched, so the statement about a way to match assumes the same of
that.  Each way to combine ways keeps it.

* **`Overlaps`**, **`Aligned`**, **`Tied`** — the two texts, places in them, and outcomes.
* **`Way.Tied`** — a way comes to the same in both texts.
* **`Way.TiedOver`** — it does so for the reason that it takes characters which both texts have.
-/

namespace StreamScan.Pattern

/-! ## Two texts -/

/-- The second text lacks the first `cut` characters of the first, and is not shorter otherwise. -/
structure Agrees (cut : Nat) (x x' : Subject) : Prop where
  flags : x.flags = x'.flags
  text : ∀ i, i + cut < x.text.size → x.text[i + cut]? = x'.text[i]?
  size_le : x.text.size ≤ x'.text.size + cut

/-- Nothing else is different; or else the first text may grow, and then the second may go on. -/
structure Overlaps (loose : Prop) (cut : Nat) (x x' : Subject) : Prop extends Agrees cut x x' where
  ending : loose ∧ x.mayGrow = true ∨
    x.mayGrow = x'.mayGrow ∧ x'.text.size + cut = x.text.size

/-- What a group took, in a text that has so many characters more in front. -/
def shiftTaken (cut : Nat) : Nat × Nat × Nat → Nat × Nat × Nat :=
  fun c => (c.1, c.2.1 + cut, c.2.2 + cut)

/-- Two states that are at the same place of the two texts.  If something is missing in front, then
    at least so many characters of the second text lie before it. -/
structure Aligned (context cut size : Nat) (s s' : State) : Prop where
  index : s.index = s'.index + cut
  inside : s.index ≤ size
  captures : s.captures = s'.captures.map (shiftTaken cut)
  taken : ∀ c ∈ s.captures, c.2.2 ≤ size
  leaves : cut = 0 ∨ context ≤ s'.index

/-- Two outcomes that say the same, as far as `Q` can tell.  If `loose`, a text that was exhausted
    leaves everything open, and so does a match unless `strict`. -/
inductive Tied (loose : Prop) (strict : Bool) (Q : State → State → Prop) : Outcome → Outcome → Prop
  | unknown (h : loose) (o : Outcome) : Tied loose strict Q .exhausted o
  | unsettled (h : loose) (hstrict : strict = false) (s : State) (o : Outcome) :
    Tied loose strict Q (.matched s) o
  | exhausted : Tied loose strict Q .exhausted .exhausted
  | refused : Tied loose strict Q .refused .refused
  | matched {s s' : State} (h : Q s s') : Tied loose strict Q (.matched s) (.matched s')

section
variable {context cut size : Nat} {s s' : State}

/-- Going on to a later place. -/
theorem Aligned.moved (h : Aligned context cut size s s') {within : Nat} {t t' : State}
    (ht : Aligned within cut size t t') {i i' : Nat} (hi : i = i' + cut) (hfrom : s.index ≤ i)
    (hto : i ≤ size) :
    Aligned context cut size { t with index := i } { t' with index := i' } where
  index := hi
  inside := hto
  captures := ht.captures
  taken := ht.taken
  leaves := by
    have hindex := h.index
    rcases h.leaves with hcut | hleaves
    · exact Or.inl hcut
    · exact Or.inr (by show context ≤ i'; omega)

/-- Going back by so many characters, which leaves as many less before. -/
theorem Aligned.back (h : Aligned context cut size s s') {width : Nat} (hwidth : width ≤ s'.index) :
    Aligned (context - width) cut size { s with index := s.index - width }
      { s' with index := s'.index - width } where
  index := by
    have hindex := h.index
    show s.index - width = s'.index - width + cut
    omega
  inside := Nat.le_trans (Nat.sub_le _ _) h.inside
  captures := h.captures
  taken := h.taken
  leaves := by
    rcases h.leaves with hcut | hleaves
    · exact Or.inl hcut
    · exact Or.inr (Nat.sub_le_sub_right hleaves width)

/-- Remembering what a group took. -/
theorem Aligned.record {first first' : Nat} (h : Aligned context cut size s s')
    (hfirst : first = first' + cut) (group : Nat) :
    Aligned context cut size (s.record group first) (s'.record group first') where
  index := h.index
  inside := h.inside
  captures := by
    show _ :: _ = shiftTaken cut _ :: _
    rw [h.captures, h.index, hfirst]
    rfl
  taken c hc := by
    rcases List.mem_cons.mp hc with rfl | hold
    · exact h.inside
    · exact h.taken c hold
  leaves := h.leaves

theorem lookup_shiftTaken (captures : List (Nat × Nat × Nat)) (group : Nat) :
    (captures.map (shiftTaken cut)).lookup group =
      (captures.lookup group).map fun c => (c.1 + cut, c.2 + cut) := by
  induction captures with
  | nil => rfl
  | cons c captures ih =>
    obtain ⟨number, stretch⟩ := c
    rw [List.map_cons, shiftTaken, List.lookup_cons, List.lookup_cons]
    cases group == number with
    | true => rfl
    | false => exact ih

/-- What a group took last. -/
theorem Aligned.lastTaken? (h : Aligned context cut size s s') (group : Nat) :
    s.lastTaken? group = (s'.lastTaken? group).map fun c => (c.1 + cut, c.2 + cut) := by
  rw [State.lastTaken?, h.captures]
  exact lookup_shiftTaken s'.captures group

theorem mem_of_lookup {captures : List (Nat × Nat × Nat)} {group : Nat} {c : Nat × Nat}
    (h : captures.lookup group = some c) : (group, c) ∈ captures := by
  induction captures with
  | nil => exact nomatch h
  | cons d captures ih =>
    obtain ⟨number, stretch⟩ := d
    rw [List.lookup_cons] at h
    cases hsame : group == number with
    | true =>
      rw [hsame] at h
      obtain rfl := Option.some.inj h
      rw [eq_of_beq hsame]
      exact List.mem_cons_self
    | false =>
      rw [hsame] at h
      exact List.mem_cons_of_mem _ (ih h)

end

section
variable {loose : Prop} {strict : Bool} {P Q : State → State → Prop} {o o' : Outcome}

/-- A refusal says nothing of a text that may grow, unless the other refuses too. -/
theorem Tied.lost (h : loose) (hstrict : strict = false) (o : Outcome) :
    Tied loose strict Q o .refused := by
  cases o with
  | refused => exact .refused
  | exhausted => exact .unknown h _
  | matched s => exact .unsettled h hstrict s _

theorem Tied.orElse {next next' : Unit → Outcome} (h : Tied loose strict Q o o')
    (hnext : Tied loose strict Q (next ()) (next' ())) :
    Tied loose strict Q (o.orElse next) (o'.orElse next') := by
  cases h with
  | unknown hloose o => exact .unknown hloose _
  | unsettled hloose hstrict s o => exact .unsettled hloose hstrict s _
  | exhausted => exact .exhausted
  | refused => exact hnext
  | matched h => exact .matched h

theorem Tied.andThen {rest rest' : Rest} (h : Tied loose true P o o')
    (hrest : ∀ t t', P t t' → Tied loose strict Q (rest t) (rest' t')) :
    Tied loose strict Q (o.andThen rest) (o'.andThen rest') := by
  cases h with
  | unknown hloose o => exact .unknown hloose _
  | unsettled _ hstrict s o => exact nomatch hstrict
  | exhausted => exact .exhausted
  | refused => exact .refused
  | matched h => exact hrest _ _ h

end

/-! ## Ways -/

/-- Two ways come to the same from states at the same place, if that holds of what remains to be
    matched from any later place. -/
def Way.Tied (loose : Prop) (strict : Bool) (context cut size : Nat) (way way' : Way) : Prop :=
  ∀ {Q : State → State → Prop} {s s' : State} {rest rest' : Rest},
    Aligned context cut size s s' →
    (∀ t t', Aligned context cut size t t' → s.index ≤ t.index →
      Pattern.Tied loose strict Q (rest t) (rest' t')) →
    Pattern.Tied loose strict Q (way s rest) (way' s' rest')

namespace Way

/-- Looking ahead or behind, where what was looked for comes to the same. -/
theorem tied_look {loose : Prop} {strict : Bool} {P Q : State → State → Prop} {way way' : Way}
    {s s' : State} {rest rest' : Rest} (negative : Bool)
    (hbody : Pattern.Tied loose true P (way s .matched) (way' s' .matched))
    (hstay : Pattern.Tied loose strict Q (rest s) (rest' s'))
    (hback : ∀ t t', P t t' → Pattern.Tied loose strict Q (rest { t with index := s.index })
      (rest' { t' with index := s'.index })) :
    Pattern.Tied loose strict Q (way.look negative s rest) (way'.look negative s' rest') := by
  unfold look
  generalize way s .matched = o at hbody
  generalize way' s' .matched = o' at hbody
  cases hbody with
  | unknown hloose o =>
    cases negative with
    | false => exact .unknown hloose _
    | true => exact .unknown hloose _
  | unsettled _ hstrict s o => exact nomatch hstrict
  | exhausted =>
    cases negative with
    | false => exact .exhausted
    | true => exact .exhausted
  | refused =>
    cases negative with
    | false => exact .refused
    | true => exact hstay
  | matched h =>
    cases negative with
    | false => exact hback _ _ h
    | true => exact .refused

section
variable {loose : Prop} {strict : Bool} {context cut size size' : Nat}
  {way way' second second' : Way}

theorem tied_rest :
    Way.Tied loose strict context cut size (fun s rest => rest s) fun s rest => rest s := by
  intro Q s s' rest rest' hs hrest
  exact hrest s s' hs (Nat.le_refl _)

theorem tied_seq (h : Way.Tied loose strict context cut size way way')
    (hsecond : Way.Tied loose strict context cut size second second') :
    Way.Tied loose strict context cut size (fun s rest => way s fun s => second s rest)
      fun s rest => way' s fun s => second' s rest := by
  intro Q s s' rest rest' hs hrest
  refine h hs ?_
  intro t t' ht hle
  refine hsecond ht ?_
  intro u u' hu hle'
  exact hrest u u' hu (Nat.le_trans hle hle')

theorem tied_times (h : Way.Tied loose strict context cut size way way') (n : Nat) :
    Way.Tied loose strict context cut size (way.times n) (way'.times n) := by
  induction n with
  | zero => exact tied_rest
  | succ n ih => exact tied_seq h ih

/-- One repetition more, which has to take a character. -/
theorem tied_more (h : Way.Tied loose strict context cut size way way')
    {Q : State → State → Prop} {s s' : State} {again again' : Rest}
    (hs : Aligned context cut size s s')
    (hagain : ∀ t t', Aligned context cut size t t' → s.index < t.index →
      Pattern.Tied loose strict Q (again t) (again' t')) :
    Pattern.Tied loose strict Q (way s fun t => if t.index = s.index then .refused else again t)
      (way' s' fun t => if t.index = s'.index then .refused else again' t) := by
  refine h hs ?_
  intro t t' ht hle
  have hindex := hs.index
  have hindex' := ht.index
  by_cases hsame : t.index = s.index
  · rw [if_pos hsame, if_pos (by omega)]
    exact .refused
  · rw [if_neg hsame, if_neg (by omega)]
    exact hagain t t' ht (by omega)

/-- Two bounds on the repetitions that are left: they are the same, or both allow to take every
    character that is left. -/
def Enough (size size' : Nat) (s s' : State) (n n' : Nat) : Prop :=
  n = n' ∨ size + 1 ≤ n + s.index ∧ size' + 1 ≤ n' + s'.index

theorem Enough.next {s s' t t' : State} {n n' : Nat}
    (h : Enough size size' s s' (n + 1) (n' + 1)) (hs : Aligned context cut size s s')
    (ht : Aligned context cut size t t') (hlt : s.index < t.index) :
    Enough size size' t t' n n' := by
  have hindex := hs.index
  have hindex' := ht.index
  rcases h with hsame | ⟨hn, hn'⟩
  · exact Or.inl (Nat.succ.inj hsame)
  · exact Or.inr (by omega)

theorem Enough.cases {s s' : State} {n n' : Nat} (h : Enough size size' s s' n n')
    (hs : Aligned context cut size s s') (hsize : size ≤ size' + cut) :
    n = 0 ∧ n' = 0 ∨ ∃ k k', n = k + 1 ∧ n' = k' + 1 := by
  have hindex := hs.index
  have hinside := hs.inside
  cases n with
  | zero =>
    rcases h with hsame | ⟨hn, -⟩
    · exact Or.inl ⟨rfl, hsame.symm⟩
    · omega
  | succ k =>
    cases n' with
    | zero =>
      rcases h with hsame | ⟨-, hn'⟩
      · exact nomatch hsame
      · omega
    | succ k' => exact Or.inr ⟨k, k', rfl, rfl⟩

theorem tied_greedy (h : Way.Tied loose strict context cut size way way')
    (hsize : size ≤ size' + cut) {Q : State → State → Prop} {s s' : State} {rest rest' : Rest}
    {n n' : Nat} (henough : Enough size size' s s' n n') (hs : Aligned context cut size s s')
    (hrest : ∀ t t', Aligned context cut size t t' → s.index ≤ t.index →
      Pattern.Tied loose strict Q (rest t) (rest' t')) :
    Pattern.Tied loose strict Q (way.greedy n s rest) (way'.greedy n' s' rest') := by
  induction n generalizing n' s s' with
  | zero =>
    rcases henough.cases hs hsize with ⟨-, rfl⟩ | ⟨k, k', hk, -⟩
    · exact hrest s s' hs (Nat.le_refl _)
    · exact nomatch hk
  | succ n ih =>
    rcases henough.cases hs hsize with ⟨hn, -⟩ | ⟨k, n', -, rfl⟩
    · exact nomatch hn
    · rw [greedy, greedy]
      refine Tied.orElse (tied_more h hs ?_) (hrest s s' hs (Nat.le_refl _))
      intro t t' ht hlt
      refine ih (henough.next hs ht hlt) ht ?_
      intro u u' hu hle
      exact hrest u u' hu (Nat.le_trans (Nat.le_of_lt hlt) hle)

theorem tied_reluctant (h : Way.Tied loose strict context cut size way way')
    (hsize : size ≤ size' + cut) {Q : State → State → Prop} {s s' : State} {rest rest' : Rest}
    {n n' : Nat} (henough : Enough size size' s s' n n') (hs : Aligned context cut size s s')
    (hrest : ∀ t t', Aligned context cut size t t' → s.index ≤ t.index →
      Pattern.Tied loose strict Q (rest t) (rest' t')) :
    Pattern.Tied loose strict Q (way.reluctant n s rest) (way'.reluctant n' s' rest') := by
  induction n generalizing n' s s' with
  | zero =>
    rcases henough.cases hs hsize with ⟨-, rfl⟩ | ⟨k, k', hk, -⟩
    · exact hrest s s' hs (Nat.le_refl _)
    · exact nomatch hk
  | succ n ih =>
    rcases henough.cases hs hsize with ⟨hn, -⟩ | ⟨k, n', -, rfl⟩
    · exact nomatch hn
    · rw [reluctant, reluctant]
      refine Tied.orElse (hrest s s' hs (Nat.le_refl _)) (tied_more h hs ?_)
      intro t t' ht hlt
      refine ih (henough.next hs ht hlt) ht ?_
      intro u u' hu hle
      exact hrest u u' hu (Nat.le_trans (Nat.le_of_lt hlt) hle)

/-- Committing to a match, which has to be the same in both texts. -/
theorem tied_commit (h : Way.Tied loose true context cut size way way') :
    Way.Tied loose strict context cut size way.commit way'.commit := by
  intro Q s s' rest rest' hs hrest
  have hbody : Pattern.Tied loose true
      (fun t t' => Aligned context cut size t t' ∧ s.index ≤ t.index)
      (way s .matched) (way' s' .matched) := by
    refine h hs ?_
    intro t t' ht hle
    exact .matched ⟨ht, hle⟩
  refine hbody.andThen ?_
  rintro t t' ⟨ht, hle⟩
  exact hrest t t' ht hle

/-- How often something can be repeated at most is enough in both texts, or it is the same. -/
theorem enough_more {s s' : State} (q : Quantifier) :
    Enough size size' s s' (q.most.elim (size + 1 - s.index) (· - q.least))
      (q.most.elim (size' + 1 - s'.index) (· - q.least)) := by
  cases q.most with
  | none =>
    right
    simp only [Option.elim_none]
    omega
  | some most => exact Or.inl rfl

/-- Repeating as often as can be, after as often as has to be. -/
theorem tied_greedily (h : Way.Tied loose strict context cut size way way')
    (hsize : size ≤ size' + cut) (q : Quantifier) :
    Way.Tied loose strict context cut size
      (fun s rest => way.times q.least s fun s =>
        way.greedy (q.most.elim (size + 1 - s.index) (· - q.least)) s rest)
      fun s rest => way'.times q.least s fun s =>
        way'.greedy (q.most.elim (size' + 1 - s.index) (· - q.least)) s rest := by
  intro Q s s' rest rest' hs hrest
  refine tied_times h q.least hs ?_
  intro t t' ht hle
  refine tied_greedy h hsize (enough_more q) ht ?_
  intro u u' hu hle'
  exact hrest u u' hu (Nat.le_trans hle hle')

theorem tied_repeated {q : Quantifier}
    (h : Way.Tied loose (strict || q.mode == .possessive) context cut size way way')
    (hsize : size ≤ size' + cut) :
    Way.Tied loose strict context cut size (way.repeated size q) (way'.repeated size' q) := by
  unfold repeated
  intro Q s s' rest rest' hs hrest
  cases hmode : q.mode with
  | greedy =>
    rw [hmode, show (Mode.greedy == Mode.possessive) = false from rfl, Bool.or_false] at h
    exact tied_greedily h hsize q hs hrest
  | reluctant =>
    rw [hmode, show (Mode.reluctant == Mode.possessive) = false from rfl, Bool.or_false] at h
    refine tied_times h q.least hs ?_
    intro t t' ht hle
    refine tied_reluctant h hsize (enough_more q) ht ?_
    intro u u' hu hle'
    exact hrest u u' hu (Nat.le_trans hle hle')
  | possessive =>
    rw [hmode, beq_self_eq_true, Bool.or_true] at h
    exact tied_commit (tied_greedily h hsize q) hs hrest

end

end Way

/-! ## Ways that take a fixed number of characters -/

/-- Two ways come to the same from states at the same place, if so many characters follow there in
    both texts and it holds of what remains to be matched after these. -/
def Way.TiedOver (width context cut size : Nat) (way way' : Way) : Prop :=
  ∀ {loose : Prop} {strict : Bool} {Q : State → State → Prop} {s s' : State} {rest rest' : Rest},
    Aligned context cut size s s' → s.index + width ≤ size →
    (∀ t t', Aligned context cut size t t' → t.index = s.index + width →
      Pattern.Tied loose strict Q (rest t) (rest' t')) →
    Pattern.Tied loose strict Q (way s rest) (way' s' rest')

namespace Way

variable {width more context cut size : Nat} {way way' second second' : Way}

theorem tiedOver_rest :
    Way.TiedOver 0 context cut size (fun s rest => rest s) fun s rest => rest s := by
  intro loose strict Q s s' rest rest' hs _ hrest
  exact hrest s s' hs rfl

theorem tiedOver_seq (h : Way.TiedOver width context cut size way way')
    (hsecond : Way.TiedOver more context cut size second second') :
    Way.TiedOver (width + more) context cut size (fun s rest => way s fun s => second s rest)
      fun s rest => way' s fun s => second' s rest := by
  intro loose strict Q s s' rest rest' hs hroom hrest
  refine h hs (by omega) ?_
  intro t t' ht hindex
  refine hsecond ht (by omega) ?_
  intro u u' hu hindex'
  exact hrest u u' hu (by omega)

theorem tiedOver_times (h : Way.TiedOver width context cut size way way') (n : Nat) :
    Way.TiedOver (n * width) context cut size (way.times n) (way'.times n) := by
  induction n with
  | zero =>
    rw [Nat.zero_mul]
    exact tiedOver_rest
  | succ n ih =>
    rw [Nat.succ_mul, Nat.add_comm]
    exact tiedOver_seq h ih

theorem tiedOver_commit (h : Way.TiedOver width context cut size way way') :
    Way.TiedOver width context cut size way.commit way'.commit := by
  intro loose strict Q s s' rest rest' hs hroom hrest
  have hbody : Pattern.Tied loose true
      (fun t t' => Aligned context cut size t t' ∧ t.index = s.index + width)
      (way s .matched) (way' s' .matched) := by
    refine h hs hroom ?_
    intro t t' ht hindex
    exact .matched ⟨ht, hindex⟩
  refine hbody.andThen ?_
  rintro t t' ⟨ht, hindex⟩
  exact hrest t t' ht hindex

/-- Repeating a fixed number of times, whatever would be tried first if there were a choice. -/
theorem tiedOver_repeated (h : Way.TiedOver width context cut size way way') {size' : Nat}
    {q : Quantifier} (hfixed : q.most = some q.least) :
    Way.TiedOver (q.least * width) context cut size (way.repeated size q)
      (way'.repeated size' q) := by
  have htimes : Way.TiedOver (q.least * width) context cut size (way.times q.least)
      (way'.times q.least) := tiedOver_times h q.least
  unfold repeated
  rw [hfixed]
  simp only [Option.elim_some, Nat.sub_self]
  intro loose strict Q s s' rest rest' hs hroom hrest
  cases q.mode with
  | greedy => exact htimes hs hroom hrest
  | reluctant => exact htimes hs hroom hrest
  | possessive => exact tiedOver_commit htimes hs hroom hrest

/-- What takes no character comes to the same also where the texts may go on. -/
theorem TiedOver.tied {loose : Prop} {strict : Bool}
    (h : Way.TiedOver 0 context cut size way way') :
    Way.Tied loose strict context cut size way way' := by
  intro Q s s' rest rest' hs hrest
  refine h hs hs.inside ?_
  intro t t' ht hindex
  exact hrest t t' ht (Nat.le_of_eq hindex.symm)

/-- What takes a fixed number of characters and ends here. -/
theorem tied_endingHere {loose : Prop} {strict : Bool} {s s' : State}
    (h : Way.TiedOver width (context - width) cut size way way') (hwidth : width ≤ context)
    (hs : Aligned context cut size s s') :
    Pattern.Tied loose strict (Aligned (context - width) cut size)
      (way.endingHere (Subject.beginnings s.index (some width)) s .matched)
      (way'.endingHere (Subject.beginnings s'.index (some width)) s' .matched) := by
  have hindex := hs.index
  have hleaves := hs.leaves
  rw [Subject.beginnings, Subject.beginnings]
  by_cases hbefore : width ≤ s'.index
  · rw [if_pos (by omega), if_pos hbefore, endingHere, endingHere]
    refine Tied.orElse (h (hs.back hbefore) ?_ ?_) .refused
    · have hinside := hs.inside
      show s.index - width + width ≤ size
      omega
    · intro t t' ht hend
      have hindex' := ht.index
      have hend' : t.index = s.index - width + width := hend
      rw [if_pos (by omega), if_pos (by omega)]
      exact .matched ht
  · rw [if_neg (by omega), if_neg hbefore]
    exact .refused

/-- Looking behind for something of a fixed width. -/
theorem tiedOver_behind (h : Way.TiedOver width (context - width) cut size way way')
    (hwidth : width ≤ context) (negative : Bool) :
    Way.TiedOver 0 context cut size
      (fun s rest =>
        (way.endingHere (Subject.beginnings s.index (some width))).look negative s rest)
      fun s rest =>
        (way'.endingHere (Subject.beginnings s.index (some width))).look negative s rest := by
  intro loose strict Q s s' rest rest' hs _ hrest
  refine tied_look negative (tied_endingHere h hwidth hs) (hrest s s' hs rfl) ?_
  intro t t' ht
  exact hrest _ _ (hs.moved ht hs.index (Nat.le_refl _) hs.inside) rfl

end Way

end StreamScan.Pattern

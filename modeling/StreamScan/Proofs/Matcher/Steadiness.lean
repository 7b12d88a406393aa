import StreamScan.Proofs.Matcher.Alignment

/-!
# Patterns that are steady

An attempt that failed should not become a match when the text goes on, and it should need only a
few of the characters before it.  What can go wrong is plain from the expression: a condition on the
end of the text or of a word asks about what may follow, a look behind about what precedes.

The end of the text may be asked for where failing there is all that comes of it.  It may not where
a choice is made for good, which is within a look ahead, an atomic group or a possessive repetition.
What a look behind looks for has to have a fixed width and to lie in front of it.

* **`Expr.isNear`**, **`Expr.isFinal`** — the expressions of which both can be said in this way.
* **`run_tiedOver`** — what a look behind looks for comes to the same in two views of a text.
* **`run_tied`** — so does every such expression, by induction over the expression.
* **`near`**, **`steady`** — such patterns keep the laws of `Matcher.Near` and `Matcher.Steady`.
-/

namespace StreamScan.Pattern

/-- Whether an expression that takes a fixed number of characters looks at these only, and at no
    more than so many characters before them. -/
def Expr.isConfined : Expr → Nat → Bool
  | .empty, _ | .single _, _ => true
  | .anchor .caret, context | .anchor .textStart, context => 1 ≤ context
  | .anchor _, _ | .again _, _ | .ahead _ _, _ => false
  | .seq first second, context | .alt first second, context =>
    first.isConfined context && second.isConfined context
  | .capture _ body, context | .repeated _ body, context | .atomic body, context =>
    body.isConfined context
  | .behind _ body, context =>
    body.width?.any fun width => width ≤ context && body.isConfined (context - width)

/-- Whether an expression looks at no more than so many characters before it. -/
def Expr.isNear (context : Nat) : Expr → Bool
  | .empty | .single _ | .again _ | .anchor .dollar | .anchor .textEnd => true
  | .anchor _ => 1 ≤ context
  | .seq first second | .alt first second => first.isNear context && second.isNear context
  | .capture _ body | .repeated _ body | .atomic body | .ahead _ body => body.isNear context
  | .behind negative body => (Expr.behind negative body).isConfined context

/-- Whether what follows after the text cannot undo that an expression failed.  It may ask for the
    end of the text unless `strict`. -/
def Expr.isFinal : Expr → Bool → Bool
  | .anchor .dollar, strict | .anchor .textEnd, strict => !strict
  | .anchor .boundary, _ | .anchor .notBoundary, _ => false
  | .seq first second, strict | .alt first second, strict =>
    first.isFinal strict && second.isFinal strict
  | .capture _ body, strict => body.isFinal strict
  | .repeated q body, strict => body.isFinal (strict || q.mode == .possessive)
  | .atomic body, _ | .ahead _ body, _ => body.isFinal true
  | _, _ => true

section
variable {loose : Prop} {strict : Bool} {context cut : Nat} {x x' : Subject}

/-! ## Characters -/

/-- At a place where the first text has a character, the second has the same. -/
theorem Agrees.text_eq (hx : Agrees cut x x') {s s' : State}
    (hs : Aligned context cut x.text.size s s') (hlt : s.index < x.text.size) :
    x.text[s.index]? = x'.text[s'.index]? := by
  have hindex := hs.index
  rw [hindex]
  exact hx.text s'.index (by omega)

/-- Before a place they have the same, too. -/
theorem Agrees.before_eq (hx : Agrees cut x x') {s s' : State}
    (hs : Aligned context cut x.text.size s s') (hpos : 0 < s'.index) :
    x.text[s.index - 1]? = x'.text[s'.index - 1]? := by
  have hindex := hs.index
  have hinside := hs.inside
  rw [show s.index - 1 = s'.index - 1 + cut by omega]
  exact hx.text (s'.index - 1) (by omega)

/-- If both texts end at the same place, this is all. -/
theorem Agrees.text_eq_of_size (hx : Agrees cut x x') (hsize : x'.text.size + cut = x.text.size)
    {s s' : State} (hs : Aligned context cut x.text.size s s') :
    x.text[s.index]? = x'.text[s'.index]? := by
  have hindex := hs.index
  by_cases hlt : s.index < x.text.size
  · exact hx.text_eq hs hlt
  · rw [Array.getElem?_eq_none (by omega), Array.getElem?_eq_none (by omega)]

/-- Taking a character that both texts have. -/
theorem take_tiedOver (hx : Agrees cut x x') (what : Single) :
    Way.TiedOver 1 context cut x.text.size (x.take what) (x'.take what) := by
  intro loose strict Q s s' rest rest' hs hroom hrest
  have hindex := hs.index
  rw [Subject.take, Subject.take, ← hx.text_eq hs hroom, Array.getElem?_eq_getElem hroom,
    ← hx.flags]
  by_cases haccepts : x.flags.accepts x.text[s.index] what = true
  · simp only [haccepts, if_true]
    exact hrest _ _ (hs.moved hs (by omega) (Nat.le_succ _) hroom) rfl
  · simp only [haccepts]
    exact .refused

theorem take_tied (hx : Overlaps loose cut x x') (what : Single) :
    Way.Tied loose strict context cut x.text.size (x.take what) (x'.take what) := by
  intro Q s s' rest rest' hs hrest
  by_cases hlt : s.index < x.text.size
  · refine take_tiedOver hx.toAgrees what hs hlt ?_
    intro t t' ht hnext
    exact hrest t t' ht (by omega)
  · have hindex := hs.index
    rw [Subject.take, Subject.take, Array.getElem?_eq_none (Nat.le_of_not_lt hlt)]
    rcases hx.ending with ⟨hloose, hgrow⟩ | ⟨hgrow, hsize⟩
    · simp only [hgrow, if_true]
      exact .unknown hloose _
    · rw [Array.getElem?_eq_none (by omega), hgrow]
      cases x'.mayGrow with
      | true => exact .exhausted
      | false => exact .refused

theorem takeAll_tied (hx : Overlaps loose cut x x') (cs : List Char) :
    Way.Tied loose strict context cut x.text.size (x.takeAll cs) (x'.takeAll cs) := by
  induction cs with
  | nil => exact Way.tied_rest
  | cons c cs ih => exact Way.tied_seq (take_tied hx (.code c.toNat)) ih

/-- A stretch of the first text is the same stretch of the second. -/
theorem extract_eq (hx : Agrees cut x x') {first stop : Nat} (hstop : stop + cut ≤ x.text.size) :
    x.text.extract (first + cut) (stop + cut) = x'.text.extract first stop := by
  have hsize := hx.size_le
  apply Array.ext_getElem?
  intro i
  by_cases hlt : i + first < stop
  · have hsame := hx.text (first + i) (by omega)
    rw [Array.getElem?_extract_of_lt (by omega), Array.getElem?_extract_of_lt (by omega),
      ← Array.getElem?_eq_getElem, ← Array.getElem?_eq_getElem, ← hsame, Nat.add_right_comm]
  · rw [Array.getElem?_eq_none, Array.getElem?_eq_none]
    · rw [Array.size_extract]
      omega
    · rw [Array.size_extract]
      omega

/-! ## Conditions on the place -/

/-- One character before a place tells whether the text starts there. -/
theorem Aligned.index_eq_zero {size : Nat} {s s' : State} (hs : Aligned context cut size s s')
    (hcontext : 1 ≤ context) : s.index = 0 ↔ s'.index = 0 := by
  have hindex := hs.index
  rcases hs.leaves with hcut | hleaves
  · omega
  · omega

/-- A condition on the start of the text, or of a line, needs that character. -/
theorem holds_start (hx : Agrees cut x x') {s s' : State}
    (hs : Aligned context cut x.text.size s s') (hcontext : 1 ≤ context) :
    x.holds s.index .caret = x'.holds s'.index .caret ∧
      x.holds s.index .textStart = x'.holds s'.index .textStart := by
  have hzero := hs.index_eq_zero hcontext
  rw [Subject.holds, Subject.holds, Subject.holds, Subject.holds, ← hx.flags]
  by_cases hstart : s.index = 0
  · rw [hstart, hzero.mp hstart]
    exact ⟨rfl, rfl⟩
  · rw [hx.before_eq hs (by omega), decide_eq_false hstart, decide_eq_false (mt hzero.mpr hstart)]
    exact ⟨rfl, rfl⟩

/-- So does a condition on the start or end of a word; and it needs the next one. -/
theorem boundaryAt_eq (hx : Agrees cut x x') (hsize : x'.text.size + cut = x.text.size)
    {s s' : State} (hs : Aligned context cut x.text.size s s') (hcontext : 1 ≤ context) :
    x.boundaryAt s.index = x'.boundaryAt s'.index := by
  have hzero := hs.index_eq_zero hcontext
  have hnext : x.wordAt s.index = x'.wordAt s'.index := by
    rw [Subject.wordAt, Subject.wordAt, hx.text_eq_of_size hsize hs, hx.flags]
  rw [Subject.boundaryAt, Subject.boundaryAt, hnext]
  by_cases hstart : s.index = 0
  · rw [hstart, hzero.mp hstart]
    rfl
  · have hbefore : x.wordAt (s.index - 1) = x'.wordAt (s'.index - 1) := by
      rw [Subject.wordAt, Subject.wordAt, hx.before_eq hs (by omega), hx.flags]
    rw [hbefore, decide_eq_true (show 0 < s.index by omega),
      decide_eq_true (show 0 < s'.index by omega)]

/-- Where the second text ends, or a last line of it, there the first ends, too. -/
theorem holds_end_of_holds (hx : Agrees cut x x') {s s' : State}
    (hs : Aligned context cut x.text.size s s') :
    (x'.holds s'.index .dollar = true → x.holds s.index .dollar = true) ∧
      (x'.holds s'.index .textEnd = true → x.holds s.index .textEnd = true) := by
  have hindex := hs.index
  have hinside := hs.inside
  have hsize := hx.size_le
  simp only [Subject.holds, Bool.or_eq_true, Bool.and_eq_true, decide_eq_true_eq]
  constructor
  · intro h
    by_cases hend : s.index = x.text.size
    · exact Or.inl hend
    · have hsame := hx.text_eq hs (by omega)
      rcases h with hend' | ⟨hline, hwhere⟩
      · omega
      · refine Or.inr ⟨hsame.trans hline, ?_⟩
        rcases hwhere with hmulti | hlast
        · exact Or.inl (hx.flags ▸ hmulti)
        · exact Or.inr (by omega)
  · intro h
    omega

/-- If both texts end at the same place, this holds the other way round as well. -/
theorem holds_end_eq (hx : Agrees cut x x') (hsize : x'.text.size + cut = x.text.size)
    {s s' : State} (hs : Aligned context cut x.text.size s s') :
    x.holds s.index .dollar = x'.holds s'.index .dollar ∧
      x.holds s.index .textEnd = x'.holds s'.index .textEnd := by
  have hindex := hs.index
  have hinside := hs.inside
  have hend : s.index = x.text.size ↔ s'.index = x'.text.size := by omega
  have hlast : s.index + 1 = x.text.size ↔ s'.index + 1 = x'.text.size := by omega
  simp only [Subject.holds, hend, hlast, hx.text_eq_of_size hsize hs, hx.flags, and_self]

/-- Going on only if a condition holds.  In a text that may grow it may hold no longer. -/
theorem tied_if {holds holds' : Bool} {Q : State → State → Prop} {o o' : Outcome}
    (h : holds = holds' ∨ (loose ∧ strict = false) ∧ (holds' = true → holds = true))
    (ho : Tied loose strict Q o o') :
    Tied loose strict Q (if holds then o else .refused) (if holds' then o' else .refused) := by
  cases holds with
  | true =>
    cases holds' with
    | true => exact ho
    | false =>
      rcases h with hsame | ⟨⟨hloose, hstrict⟩, -⟩
      · exact nomatch hsame
      · exact .lost hloose hstrict _
  | false =>
    cases holds' with
    | true =>
      rcases h with hsame | ⟨-, hmono⟩
      · exact nomatch hsame
      · exact nomatch hmono rfl
    | false => exact .refused

/-! ## Looking behind -/

theorem Expr.width?_seq {first second : Expr} {width : Nat}
    (h : (Expr.seq first second).width? = some width) :
    ∃ n m, first.width? = some n ∧ second.width? = some m ∧ n + m = width := by
  obtain ⟨n, hn, hrest⟩ := Option.bind_eq_some_iff.mp h
  obtain ⟨m, hm, hsum⟩ := Option.bind_eq_some_iff.mp hrest
  exact ⟨n, m, hn, hm, Option.some.inj hsum⟩

theorem Expr.width?_alt {first second : Expr} {width : Nat}
    (h : (Expr.alt first second).width? = some width) :
    first.width? = some width ∧ second.width? = some width := by
  obtain ⟨n, hn, hrest⟩ := Option.bind_eq_some_iff.mp h
  obtain ⟨m, hm, hsame⟩ := Option.bind_eq_some_iff.mp hrest
  by_cases heq : n = m
  · rw [if_pos heq] at hsame
    rw [hsame] at hn
    exact ⟨hsame, by rw [hm, ← heq, Option.some.inj hn]⟩
  · rw [if_neg heq] at hsame
    exact nomatch hsame

theorem Expr.width?_repeated {q : Quantifier} {body : Expr} {width : Nat}
    (h : (Expr.repeated q body).width? = some width) :
    q.most = some q.least ∧ ∃ n, body.width? = some n ∧ q.least * n = width := by
  rw [Expr.width?] at h
  by_cases hfixed : q.most = some q.least
  · rw [if_pos hfixed] at h
    obtain ⟨n, hn, hproduct⟩ := Option.bind_eq_some_iff.mp h
    exact ⟨hfixed, n, hn, Option.some.inj hproduct⟩
  · rw [if_neg hfixed] at h
    exact nomatch h

/-- The laws of a text that is said not to grow are those of the text. -/
theorem Agrees.closed (hx : Agrees cut x x') :
    Agrees cut { x with mayGrow := false } { x' with mayGrow := false } :=
  ⟨hx.flags, hx.text, hx.size_le⟩

/-- Matching an expression of fixed width where both texts have so many characters. -/
theorem run_tiedOver (hx : Agrees cut x x') {e : Expr} {width : Nat}
    (he : e.isConfined context = true) (hwidth : e.width? = some width) :
    Way.TiedOver width context cut x.text.size (e.run x) (e.run x') := by
  induction e generalizing context width x x' with
  | empty =>
    obtain rfl := Option.some.inj hwidth
    exact Way.tiedOver_rest
  | single what =>
    obtain rfl := Option.some.inj hwidth
    exact take_tiedOver hx what
  | anchor condition =>
    obtain rfl := Option.some.inj hwidth
    intro loose strict Q s s' rest rest' hs _ hrest
    have hholds : x.holds s.index condition = x'.holds s'.index condition := by
      cases condition with
      | caret => exact (holds_start hx hs (of_decide_eq_true he)).1
      | textStart => exact (holds_start hx hs (of_decide_eq_true he)).2
      | dollar | textEnd | boundary | notBoundary => exact absurd he Bool.false_ne_true
    exact tied_if (Or.inl hholds) (hrest s s' hs rfl)
  | seq first second ihfirst ihsecond =>
    rw [Expr.isConfined, Bool.and_eq_true] at he
    obtain ⟨n, m, hn, hm, rfl⟩ := Expr.width?_seq hwidth
    exact Way.tiedOver_seq (ihfirst hx he.1 hn) (ihsecond hx he.2 hm)
  | alt first second ihfirst ihsecond =>
    rw [Expr.isConfined, Bool.and_eq_true] at he
    obtain ⟨hfirst, hsecond⟩ := Expr.width?_alt hwidth
    intro loose strict Q s s' rest rest' hs hroom hrest
    unfold Expr.run
    refine Tied.orElse (ihfirst hx he.1 hfirst hs hroom hrest) ?_
    exact ihsecond hx he.2 hsecond hs hroom hrest
  | capture group body ih =>
    intro loose strict Q s s' rest rest' hs hroom hrest
    refine ih hx he hwidth hs hroom ?_
    intro t t' ht hindex
    exact hrest _ _ (ht.record hs.index group) hindex
  | again group => exact absurd he Bool.false_ne_true
  | repeated q body ih =>
    obtain ⟨hfixed, n, hn, rfl⟩ := Expr.width?_repeated hwidth
    exact Way.tiedOver_repeated (ih hx he hn) hfixed
  | atomic body ih => exact Way.tiedOver_commit (ih hx he hwidth)
  | ahead negative body ih => exact absurd he Bool.false_ne_true
  | behind negative body ih =>
    obtain rfl := Option.some.inj hwidth
    rw [Expr.isConfined, Option.any_eq_true] at he
    obtain ⟨n, hn, hinner⟩ := he
    rw [Bool.and_eq_true, decide_eq_true_eq] at hinner
    unfold Expr.run
    rw [hn]
    exact Way.tiedOver_behind (ih hx.closed hinner.2 hn) hinner.1 negative

/-! ## Steady expressions -/

/-- A condition on the place, in the two texts.  Where the first may grow, what holds now may not
    hold then, but what does not hold never will. -/
theorem holds_tied (hx : Overlaps loose cut x x') {condition : Anchor}
    (hnear : (Expr.anchor condition).isNear context = true)
    (hfinal : loose → (Expr.anchor condition).isFinal strict = true) {s s' : State}
    (hs : Aligned context cut x.text.size s s') :
    x.holds s.index condition = x'.holds s'.index condition ∨
      (loose ∧ strict = false) ∧
        (x'.holds s'.index condition = true → x.holds s.index condition = true) := by
  have hend : loose → condition = .dollar ∨ condition = .textEnd → strict = false := by
    rintro hloose (rfl | rfl)
    · exact (Bool.not_eq_true' strict).mp (hfinal hloose)
    · exact (Bool.not_eq_true' strict).mp (hfinal hloose)
  cases condition with
  | caret => exact Or.inl (holds_start hx.toAgrees hs (of_decide_eq_true hnear)).1
  | textStart => exact Or.inl (holds_start hx.toAgrees hs (of_decide_eq_true hnear)).2
  | dollar =>
    rcases hx.ending with ⟨hloose, -⟩ | ⟨-, hsize⟩
    · exact Or.inr ⟨⟨hloose, hend hloose (Or.inl rfl)⟩, (holds_end_of_holds hx.toAgrees hs).1⟩
    · exact Or.inl (holds_end_eq hx.toAgrees hsize hs).1
  | textEnd =>
    rcases hx.ending with ⟨hloose, -⟩ | ⟨-, hsize⟩
    · exact Or.inr ⟨⟨hloose, hend hloose (Or.inr rfl)⟩, (holds_end_of_holds hx.toAgrees hs).2⟩
    · exact Or.inl (holds_end_eq hx.toAgrees hsize hs).2
  | boundary =>
    rcases hx.ending with ⟨hloose, -⟩ | ⟨-, hsize⟩
    · exact nomatch hfinal hloose
    · exact Or.inl (boundaryAt_eq hx.toAgrees hsize hs (of_decide_eq_true hnear))
  | notBoundary =>
    rcases hx.ending with ⟨hloose, -⟩ | ⟨-, hsize⟩
    · exact nomatch hfinal hloose
    · exact Or.inl (congrArg (!·)
        (boundaryAt_eq hx.toAgrees hsize hs (of_decide_eq_true hnear)))

/-- Matching in the two texts an expression that looks at few characters before it, and fails for
    good if the first text may grow. -/
theorem run_tied (hx : Overlaps loose cut x x') {e : Expr} (hnear : e.isNear context = true)
    (hfinal : loose → e.isFinal strict = true) :
    Way.Tied loose strict context cut x.text.size (e.run x) (e.run x') := by
  induction e generalizing strict with
  | empty => exact Way.tied_rest
  | single what => exact take_tied hx what
  | anchor condition =>
    intro Q s s' rest rest' hs hrest
    exact tied_if (holds_tied hx hnear hfinal hs) (hrest s s' hs (Nat.le_refl _))
  | seq first second ihfirst ihsecond =>
    simp only [Expr.isNear, Expr.isFinal, Bool.and_eq_true] at hnear hfinal
    refine Way.tied_seq (ihfirst hnear.1 ?_) (ihsecond hnear.2 ?_)
    · intro hloose
      exact (hfinal hloose).1
    · intro hloose
      exact (hfinal hloose).2
  | alt first second ihfirst ihsecond =>
    simp only [Expr.isNear, Expr.isFinal, Bool.and_eq_true] at hnear hfinal
    intro Q s s' rest rest' hs hrest
    unfold Expr.run
    refine Tied.orElse (ihfirst hnear.1 ?_ hs hrest) (ihsecond hnear.2 ?_ hs hrest)
    · intro hloose
      exact (hfinal hloose).1
    · intro hloose
      exact (hfinal hloose).2
  | capture group body ih =>
    intro Q s s' rest rest' hs hrest
    refine ih hnear hfinal hs ?_
    intro t t' ht hle
    exact hrest _ _ (ht.record hs.index group) hle
  | again group =>
    intro Q s s' rest rest' hs hrest
    unfold Expr.run
    rw [hs.lastTaken? group]
    cases htaken : s'.lastTaken? group with
    | none => exact .refused
    | some stretch =>
      have hmem : (group, stretch.1 + cut, stretch.2 + cut) ∈ s.captures := by
        refine mem_of_lookup (c := (stretch.1 + cut, stretch.2 + cut)) ?_
        have hlookup := hs.lastTaken? group
        rw [htaken] at hlookup
        exact hlookup
      simp only [Option.map_some]
      rw [extract_eq hx.toAgrees (hs.taken _ hmem)]
      exact takeAll_tied hx _ hs hrest
  | repeated q body ih => exact Way.tied_repeated (ih hnear hfinal) hx.size_le
  | atomic body ih => exact Way.tied_commit (ih hnear hfinal)
  | ahead negative body ih =>
    intro Q s s' rest rest' hs hrest
    have hbody : Tied loose true (Aligned context cut x.text.size)
        (body.run x s .matched) (body.run x' s' .matched) := by
      refine ih hnear hfinal hs ?_
      intro t t' ht _
      exact .matched ht
    refine Way.tied_look negative hbody (hrest s s' hs (Nat.le_refl _)) ?_
    intro t t' ht
    exact hrest _ _ (hs.moved ht hs.index (Nat.le_refl _) hs.inside) (Nat.le_refl _)
  | behind negative body ih =>
    refine Way.TiedOver.tied ?_
    exact run_tiedOver hx.toAgrees hnear rfl

end

/-! ## Steady patterns -/

variable {p : Pattern} {context : Nat}

/-- The start of an attempt. -/
theorem aligned_start {cut size place place' : Nat} (hplace : place = place' + cut)
    (hsize : place ≤ size) (hleaves : cut = 0 ∨ context ≤ place') :
    Aligned context cut size (.start place) (.start place') where
  index := hplace
  inside := hsize
  captures := rfl
  taken _ hc := absurd hc List.not_mem_nil
  leaves := hleaves

/-- Matching in a text without its front. -/
theorem runAt_extract (hnear : p.expr.isNear context = true) {text : Array Char} {cut place : Nat}
    (hcut : cut + context ≤ place) (hplace : place ≤ text.size) (mayGrow : Bool) :
    Tied False false (Aligned context cut text.size) (p.runAt text mayGrow place)
      (p.runAt (text.extract cut) mayGrow (place - cut)) := by
  have hsize : (text.extract cut).size = text.size - cut := by
    rw [Array.size_extract, Nat.min_self]
  have hx : Overlaps False cut ⟨text, p.flags, mayGrow⟩ ⟨text.extract cut, p.flags, mayGrow⟩ := by
    refine ⟨⟨rfl, ?_, ?_⟩, Or.inr ⟨rfl, ?_⟩⟩
    · intro i hi
      have hi' : i + cut < text.size := hi
      rw [Array.getElem?_extract_of_lt (by omega), Nat.add_comm]
      exact Array.getElem?_eq_getElem _
    · show text.size ≤ (text.extract cut).size + cut
      omega
    · show (text.extract cut).size + cut = text.size
      omega
  refine run_tied hx hnear False.elim (aligned_start (by omega) hplace (Or.inr (by omega))) ?_
  intro t t' ht _
  exact .matched ht

/-- Matching in a text that goes on. -/
theorem runAt_append (hnear : p.expr.isNear context = true) (hfinal : p.expr.isFinal false = true)
    {text : Array Char} {place : Nat} (hplace : place ≤ text.size) (more : Array Char) :
    Tied True false (Aligned context 0 text.size) (p.runAt text true place)
      (p.runAt (text ++ more) false place) := by
  have hx : Overlaps True 0 ⟨text, p.flags, true⟩ ⟨text ++ more, p.flags, false⟩ := by
    refine ⟨⟨rfl, ?_, ?_⟩, Or.inl ⟨trivial, rfl⟩⟩
    · intro i hi
      exact (Array.getElem?_append_left hi).symm
    · show text.size ≤ (text ++ more).size + 0
      rw [Array.size_append]
      omega
  refine run_tied hx hnear (fun _ => hfinal) (aligned_start rfl hplace (Or.inl rfl)) ?_
  intro t t' ht _
  exact .matched ht

/-- An attempt fails if matching is refused, whether or not the text may grow. -/
theorem refused_of_failed {text : Array Char} {place : Nat} (h : p.attempt text place = .failed) :
    p.runAt text true place = .refused := by
  rw [attempt] at h
  cases hrun : p.runAt text true place with
  | refused => rfl
  | exhausted =>
    rw [hrun] at h
    split at h <;> cases h
  | matched t =>
    rw [hrun] at h
    split at h <;> cases h

/-- A pattern that looks at few characters before a place can do without the others. -/
theorem near (hnear : p.expr.isNear context = true) : p.matcher.Near context where
  toSearches := p.searches
  context_le {text cut place} hcut hplace := by
    have hnow := runAt_extract hnear hcut hplace false
    have hlater := runAt_extract hnear hcut hplace true
    show p.attempt text place = (p.attempt (text.extract cut) (place - cut)).shifted cut
    rw [attempt, attempt]
    generalize p.runAt text false place = o at hnow
    generalize p.runAt (text.extract cut) false (place - cut) = o' at hnow
    generalize p.runAt text true place = r at hlater
    generalize p.runAt (text.extract cut) true (place - cut) = r' at hlater
    -- the second question is asked only if the first was not answered by a match
    cases hnow with
    | unknown hloose | unsettled hloose => exact hloose.elim
    | matched h =>
      show Attempt.matched _ = .matched _
      rw [h.index]
    | exhausted | refused =>
      cases hlater with
      | unknown hloose | unsettled hloose => exact hloose.elim
      | exhausted | refused | matched _ => rfl

/-- If besides it fails for good, it keeps the laws that a growing text asks for, except that a
    match may be lost. -/
theorem steady (hnear : p.expr.isNear context = true) (hfinal : p.expr.isFinal false = true) :
    p.matcher.Steady context where
  toNear := near hnear
  failed {text place} hplace h more := by
    have htied := runAt_append hnear hfinal (Nat.le_of_lt hplace) more
    rw [refused_of_failed h] at htied
    rw [misses_iff]
    intro s hs
    rw [hs] at htied
    exact nomatch htied

end StreamScan.Pattern

import StreamScan.Proofs.Feed.Interleaving
import StreamScan.Proofs.Matcher.Laws
import StreamScan.Proofs.Scan.Order

/-!
# Pushing and pulling

A scan may pull chunks out of an iterator, or a copy task may push them through a pipe while the
scan reads.  It makes no difference: the passes find the same matches, with the same cursor at each
of them, and end in the same way, however the moves of the copy task fall between the reads.  The
two cursors are twins from the start on, and a pass does nothing with a cursor but what keeps them
in lockstep.

That must be true of the engine as well.  `Impartial` says so without saying what an engine is: in
whatever way cursors are in lockstep, the engine gives the same answer on both of them.  An engine
that uses a cursor through its operations cannot do otherwise.

* **`Impartial`** — engines that cursors in lockstep make no difference to.
* **`impartial_engine`** — the engine that asks a matcher is one.
* **`run_alike`** — passes over cursors in lockstep, by induction over their turns.
* **`copied_of_twin`** — how the copy task ends when its reader leaves.
* **`runFed_alike`** — a pass that runs its own feed is a pass over the chunks.
* **`push_refines_pull`** — a pass over a feed is a pass over its chunks, and the copy task ends
  with what the pass has taken.
-/

namespace StreamScan

/-- Passes that end in the same way, up to the text of a source failure. -/
inductive Ending.Alike : Ending → Ending → Prop
  | finished : Alike .finished .finished
  | stopped : Alike .stopped .stopped
  | failed {f g : Failure} (h : f.Alike g) : Alike (.failed f) (.failed g)

namespace Scan

/-- A match, and what the cursor shows of itself at its delivery. -/
def Moment.shown {σ : Type} (d : Moment σ) : Match × Cursor Unit := (d.found, d.cursor.bare)

/-- An engine that uses a cursor through its operations, and through what the cursor shows of
    itself: it answers alike on cursors that are in lockstep, and leaves them so. -/
def Impartial (ε σ τ : Type) [ByteSource σ] [ByteSource τ] [MatchEngine ε (Cursor σ)]
    [MatchEngine ε (Cursor τ)] : Prop :=
  ∀ (Q : Cursor σ → Cursor τ → Prop), Cursor.Lockstep Q →
    ∀ (e : ε) (c : Cursor σ) (c' : Cursor τ), Q c c' →
      SameUpTo Failure.Alike (MatchEngine.find e c).1 (MatchEngine.find e c').1 ∧
        (MatchEngine.find e c).2.1 = (MatchEngine.find e c').2.1 ∧
        Q (MatchEngine.find e c).2.2 (MatchEngine.find e c').2.2

/-- A search only asks for code points. -/
theorem impartial_engine {σ τ : Type} [FiniteSource σ] [FiniteSource τ] : Impartial Engine σ τ := by
  intro Q hQ e c c' h
  have halike : AnswerAlikeUpTo Failure.Alike Q Q :=
    ⟨fun h => (hQ.next h).1, fun h _ => (hQ.next h).2, fun h => (hQ.next h).2, id⟩
  obtain ⟨hanswer, hafter⟩ :=
    Engine.findFrom_alikeUpTo (e := e) (x := .empty) Failure.Alike.refl halike h
  exact ⟨hanswer.map _, rfl, hafter⟩

/-! ## Passes in lockstep -/

section
variable {ε σ τ : Type} [ByteSource σ] [ByteSource τ] [MatchEngine ε (Cursor σ)]
  [MatchEngine ε (Cursor τ)] {Q : Cursor σ → Cursor τ → Prop} {s : Scan ε σ} {s' : Scan ε τ}

/-- Scans with the same engine and cursors in lockstep. -/
structure Paired (Q : Cursor σ → Cursor τ → Prop) (s : Scan ε σ) (s' : Scan ε τ) : Prop where
  engine : s.engine = s'.engine
  cursor : Q s.cursor s'.cursor

theorem Paired.advance (hengine : Impartial ε σ τ) (hQ : Cursor.Lockstep Q) (h : Paired Q s s') :
    SameUpTo Failure.Alike s.advance.1 s'.advance.1 ∧ Paired Q s.advance.2 s'.advance.2 := by
  obtain ⟨hanswer, hengines, hcursors⟩ := hengine Q hQ s.engine s.cursor s'.cursor h.cursor
  rw [Scan.advance, Scan.advance, ← h.engine]
  generalize MatchEngine.find s.engine s.cursor = found at hanswer hengines hcursors ⊢
  generalize MatchEngine.find s.engine s'.cursor = found' at hanswer hengines hcursors ⊢
  obtain ⟨answer, engine, cursor⟩ := found
  obtain ⟨answer', engine', cursor'⟩ := found'
  simp only at hanswer hengines hcursors
  cases hanswer with
  | error halike => exact ⟨.error halike, hengines, hcursors⟩
  | ok location =>
    cases location with
    | none => exact ⟨.ok none, hengines, hcursors⟩
    | some location =>
      obtain ⟨hcopied, hafter⟩ :=
        hQ.extract hcursors location.start (location.stop - location.start)
      simp only
      generalize cursor.extract location.start (location.stop - location.start) = copied
        at hcopied hafter ⊢
      generalize cursor'.extract location.start (location.stop - location.start) = copied'
        at hcopied hafter ⊢
      obtain ⟨copied, cursor⟩ := copied
      obtain ⟨copied', cursor'⟩ := copied'
      simp only at hcopied hafter
      cases hcopied with
      | error halike => exact ⟨.error halike, hengines, hafter⟩
      | ok found => exact ⟨.ok _, hengines, hafter⟩

omit [MatchEngine ε (Cursor σ)] [MatchEngine ε (Cursor τ)] in
theorem Paired.stepPast (hQ : Cursor.Lockstep Q) (h : Paired Q s s') (d : Delivery) :
    SameUpTo Failure.Alike (s.stepPast d).1 (s'.stepPast d).1 ∧
      Paired Q (s.stepPast d).2 (s'.stepPast d).2 := by
  rw [Scan.stepPast, Scan.stepPast]
  cases d.isEmpty with
  | false => exact ⟨.ok true, h⟩
  | true =>
    obtain ⟨hanswer, hafter⟩ := hQ.skip h.cursor
    exact ⟨hanswer, h.engine, hafter⟩

/-- Passes over cursors in lockstep find the same matches and end in the same way. -/
theorem run_alike (hengine : Impartial ε σ τ) (hQ : Cursor.Lockstep Q) (h : Paired Q s s')
    (count : Nat) {seen : List (Moment σ)} {seen' : List (Moment τ)}
    (hseen : seen.map (·.shown) = seen'.map (·.shown)) :
    Ending.Alike (s.run collectMoments count seen).1 (s'.run collectMoments count seen').1 ∧
      (s.run collectMoments count seen).2.1.map (·.shown) =
        (s'.run collectMoments count seen').2.1.map (·.shown) ∧
      Paired Q (s.run collectMoments count seen).2.2 (s'.run collectMoments count seen').2.2 := by
  induction count generalizing s s' seen seen' with
  | zero => exact ⟨.stopped, hseen, h⟩
  | succ count ih =>
    obtain ⟨hadvance, hpaired⟩ := h.advance hengine hQ
    rw [run, run]
    generalize s.advance = turn at hadvance hpaired ⊢
    generalize s'.advance = turn' at hadvance hpaired ⊢
    obtain ⟨answer, s₁⟩ := turn
    obtain ⟨answer', s₁'⟩ := turn'
    simp only at hadvance hpaired
    cases hadvance with
    | error halike => exact ⟨.failed halike, hseen, hpaired⟩
    | ok delivery =>
      cases delivery with
      | none => exact ⟨.finished, hseen, hpaired⟩
      | some d =>
        have hmore : ((⟨d.found, s₁.cursor⟩ : Moment σ) :: seen).map (·.shown) =
            ((⟨d.found, s₁'.cursor⟩ : Moment τ) :: seen').map (·.shown) := by
          rw [List.map_cons, List.map_cons, hseen, Moment.shown, Moment.shown,
            hQ.bare hpaired.cursor]
        simp only [collectMoments]
        by_cases hcount : count = 0
        · rw [if_pos hcount, if_pos hcount]
          exact ⟨.stopped, hmore, hpaired⟩
        · rw [if_neg hcount, if_neg hcount]
          obtain ⟨hmoved, hpast⟩ := hpaired.stepPast hQ d
          have hsame : ({ s₁ with cursor := { s₁.cursor with source := s₁.cursor.source } } :
              Scan ε σ) = s₁ := rfl
          have hsame' : ({ s₁' with cursor := { s₁'.cursor with source := s₁'.cursor.source } } :
              Scan ε τ) = s₁' := rfl
          rw [hsame, hsame']
          generalize s₁.stepPast d = step at hmoved hpast ⊢
          generalize s₁'.stepPast d = step' at hmoved hpast ⊢
          obtain ⟨moved, s₂⟩ := step
          obtain ⟨moved', s₂'⟩ := step'
          simp only at hmoved hpast
          cases hmoved with
          | error halike => exact ⟨.failed halike, hmore, hpast⟩
          | ok moved =>
            cases moved with
            | false => exact ⟨.finished, hmore, hpast⟩
            | true => exact ih hpast hmore

end

/-! ## Chunks through a pipe -/

section
variable {τ : Type} {feed : τ → Feed} {chunks : List Bytes} {failure : Option Failure} {total : Nat}
  {c : Cursor Chunks} {c' : Cursor τ}

/-- At the start all of the chunks are left. -/
theorem offering_ofChunks {source : τ}
    (hsource : feed source = .ofProducer (.ofChunks chunks failure)) :
    Offering feed failure chunks.flatten.length 0
      (Chunks.ofList (chunks.filter (!·.isEmpty)) failure) source := by
  have hnonempty : [] ∉ chunks.filter (!·.isEmpty) := (Producer.ofChunks chunks failure).nil_not_mem
  refine ⟨_, ⟨(leftOver_nil _).symm, hnonempty, rfl⟩, ?_, hnonempty, ?_⟩
  · rw [hsource]
    exact Feed.offers_ofProducer (.ofChunks chunks failure)
  · rw [Nat.zero_add]
    exact congrArg List.length List.flatten_filter_not_isEmpty

/-- What is left in the feed of a cursor that is twin to one over the chunks. -/
theorem offers_of_twin
    (h : Cursor.Twin (Offering feed failure total) (Exhausted feed failure total) c c') :
    ∃ left, (feed c'.source).Offers failure left c'.sourceTotal ∧ [] ∉ left ∧
      c'.sourceTotal + left.flatten.length = total := by
  cases h with
  | onto _ hserves hover =>
    cases hterminated : c.terminated with
    | false =>
      obtain ⟨left, -, hoffers, hleft, htotal⟩ := hserves hterminated
      exact ⟨left, hoffers, hleft, htotal⟩
    | true =>
      obtain ⟨hoffers, htotal⟩ := hover hterminated
      exact ⟨[], hoffers, List.not_mem_nil, htotal⟩

/-- How the copy task ends when its reader leaves, after any more moves: it has copied everything
    just when the cursor has taken everything. -/
theorem copied_of_twin (hfailure : ∀ g, failure = some g → g.kind ≠ .brokenPipe)
    (h : Cursor.Twin (Offering feed failure total) (Exhausted feed failure total) c c')
    (moves : Nat) :
    (c'.sourceTotal = total → ((feed c'.source).moved moves).released.outcome =
        some (Feed.resultOf failure total)) ∧
      (c'.sourceTotal ≠ total → ∃ broken,
        ((feed c'.source).moved moves).released.outcome = some (.error broken) ∧
          broken.kind = .brokenPipe) := by
  obtain ⟨left, hoffers, hleft, htotal⟩ := offers_of_twin h
  obtain ⟨hall, hbroken⟩ := (hoffers.moved hfailure moves).released
  constructor
  · intro htaken
    -- no bytes are left, and no chunk is empty
    have hnone : left = [] := by
      refine List.eq_nil_iff_forall_not_mem.mpr fun chunk hmem => ?_
      have hempty : left.flatten = [] := List.eq_nil_of_length_eq_zero (by omega)
      exact hleft (List.flatten_eq_nil_iff.mp hempty chunk hmem ▸ hmem)
    rw [hall hnone, htaken]
  · intro htaken
    refine hbroken ?_
    rintro rfl
    exact htaken htotal

/-- A pass over the chunks, the empty ones left out, and a pass over a source that is a feed of them
    keep their cursors twins. -/
theorem run_feeds [ByteSource τ] (hfeeds : Feeds feed) {ε : Type} [MatchEngine ε (Cursor Chunks)]
    [MatchEngine ε (Cursor τ)] (hengine : Impartial ε Chunks τ)
    (hfailure : ∀ g, failure = some g → g.kind ≠ .brokenPipe ∧ g.kind.isScan = false) {source : τ}
    (hsource : feed source = .ofProducer (.ofChunks chunks failure)) (e : ε) (size : Int)
    (count : Nat) {ending ending' : Ending} {moments : List (Moment Chunks)}
    {moments' : List (Moment τ)} {s : Scan ε Chunks} {s' : Scan ε τ}
    (hpull : (ofSource e (Chunks.ofList (chunks.filter (!·.isEmpty)) failure) size).run
      collectMoments count [] = (ending, moments, s))
    (hpush : (ofSource e source size).run collectMoments count [] = (ending', moments', s')) :
    ending.Alike ending' ∧ moments.map (·.shown) = moments'.map (·.shown) ∧
      Cursor.Twin (Offering feed failure chunks.flatten.length)
        (Exhausted feed failure chunks.flatten.length) s.cursor s'.cursor := by
  have hlockstep := Cursor.lockstep_twin (mirror_feeds hfeeds hfailure chunks.flatten.length)
  have hpaired : Paired
      (Cursor.Twin (Offering feed failure chunks.flatten.length)
        (Exhausted feed failure chunks.flatten.length))
      (ofSource e (Chunks.ofList (chunks.filter (!·.isEmpty)) failure) size)
      (ofSource e source size) :=
    ⟨rfl, Cursor.twin_ofSource (offering_ofChunks hsource) size⟩
  have hnone : ([] : List (Moment Chunks)).map (·.shown) =
      ([] : List (Moment τ)).map (·.shown) := rfl
  obtain ⟨hending, hmoments, hafter⟩ := run_alike hengine hlockstep hpaired count hnone
  rw [hpull, hpush] at hending hmoments hafter
  exact ⟨hending, hmoments, hafter.cursor⟩

end

/-- A pass that runs its own feed, with no move of the copy task but those that the reader waits
    for, is a pass over the chunks, and the task comes to its end with it. -/
theorem runFed_alike {ε : Type} [MatchEngine ε (Cursor Chunks)] [MatchEngine ε (Cursor Feed)]
    (hengine : Impartial ε Chunks Feed) (chunks : List Bytes) {failure : Option Failure}
    (hfailure : ∀ g, failure = some g → g.kind ≠ .brokenPipe ∧ g.kind.isScan = false) (e : ε)
    (size : Int) (count : Nat) {ending ending' : Ending} {moments : List (Moment Chunks)}
    {moments' : List (Moment Feed)} {s : Scan ε Chunks} {s' : Scan ε Feed}
    (hpull : (ofSource e (Chunks.ofList (chunks.filter (!·.isEmpty)) failure) size).run
      collectMoments count [] = (ending, moments, s))
    (hpush : runFed collectMoments count []
      (ofSource e (.ofProducer (.ofChunks chunks failure)) size) = (ending', moments', s')) :
    ending.Alike ending' ∧ moments.map (·.shown) = moments'.map (·.shown) ∧
      (s'.cursor.sourceTotal = chunks.flatten.length → s'.cursor.source.outcome =
        some (Feed.resultOf failure chunks.flatten.length)) ∧
      (s'.cursor.sourceTotal ≠ chunks.flatten.length → ∃ broken,
        s'.cursor.source.outcome = some (.error broken) ∧ broken.kind = .brokenPipe) := by
  rw [runFed] at hpush
  rcases hrun : (ofSource e (Feed.ofProducer (.ofChunks chunks failure)) size).run collectMoments
    count [] with ⟨ending₁, moments₁, s₁⟩
  rw [hrun] at hpush
  obtain ⟨rfl, rfl, rfl⟩ : ending₁ = ending' ∧ moments₁ = moments' ∧ s₁.released = s' := by
    simpa only [Prod.mk.injEq] using hpush
  obtain ⟨hending, hmoments, htwin⟩ :=
    run_feeds feeds_self hengine hfailure rfl e size count hpull hrun
  exact ⟨hending, hmoments, copied_of_twin (fun g hg => (hfailure g hg).1) htwin 0⟩

/-- A pass over a feed finds the matches of a pass over its chunks, the empty ones left out, with
    the same cursor at each of them, and it ends in the same way, whatever the schedule of the copy
    task and however its producer ends.  When the reader has left, after any more moves, the task
    has copied everything if the pass has taken everything, and otherwise its write is broken. -/
theorem push_refines_pull {ε : Type} [MatchEngine ε (Cursor Chunks)]
    [MatchEngine ε (Cursor Interleaved)] (hengine : Impartial ε Chunks Interleaved)
    (chunks : List Bytes) {failure : Option Failure}
    (hfailure : ∀ g, failure = some g → g.kind ≠ .brokenPipe ∧ g.kind.isScan = false)
    (schedule : Nat → Nat) (e : ε) (size : Int) (count : Nat) :
    ∃ (ending ending' : Ending) (moments : List (Moment Chunks))
      (moments' : List (Moment Interleaved)) (s : Scan ε Chunks) (s' : Scan ε Interleaved),
      (ofSource e (Chunks.ofList (chunks.filter (!·.isEmpty)) failure) size).run collectMoments
        count [] = (ending, moments, s) ∧
      (ofSource e (Interleaved.ofChunks chunks failure schedule) size).run collectMoments
        count [] = (ending', moments', s') ∧
      ending.Alike ending' ∧ moments.map (·.shown) = moments'.map (·.shown) ∧
      s.cursor.bare = s'.cursor.bare ∧
      ∀ moves,
        (s'.cursor.sourceTotal = chunks.flatten.length →
          (s'.cursor.source.feed.moved moves).released.outcome =
            some (Feed.resultOf failure chunks.flatten.length)) ∧
        (s'.cursor.sourceTotal ≠ chunks.flatten.length →
          ∃ broken, (s'.cursor.source.feed.moved moves).released.outcome = some (.error broken) ∧
            broken.kind = .brokenPipe) := by
  rcases hpull : (ofSource e (Chunks.ofList (chunks.filter (!·.isEmpty)) failure) size).run
    collectMoments count [] with ⟨ending, moments, s⟩
  rcases hpush : (ofSource e (Interleaved.ofChunks chunks failure schedule) size).run
    collectMoments count [] with ⟨ending', moments', s'⟩
  obtain ⟨hending, hmoments, htwin⟩ :=
    run_feeds feeds_interleaved hengine hfailure rfl e size count hpull hpush
  exact ⟨ending, ending', moments, moments', s, s', rfl, rfl, hending, hmoments, htwin.bare_eq,
    copied_of_twin (fun g hg => (hfailure g hg).1) htwin⟩

/-- A word twice and then a window of blanks, in three chunks with an empty one between them. -/
def wordTwice : List Bytes := [[97], [], [98, 97], 98 :: List.replicate 20 32]

/-- The copy task is ahead of the reader at two reads out of three.  The word is found twice, and
    the failure of the producer ends both passes and the copy task. -/
theorem push_refines_pull_word :
    ∃ (moments : List (Moment Chunks)) (moments' : List (Moment Interleaved))
      (s : Scan Engine Chunks) (s' : Scan Engine Interleaved),
      (ofSource (Engine.mk (.literal ['a', 'b']) 16)
        (Chunks.ofList (wordTwice.filter (!·.isEmpty)) (some .streamClosed)) 16).run
          collectMoments 9 [] = (.failed (.sourceRead .streamClosed), moments, s) ∧
      (ofSource (Engine.mk (.literal ['a', 'b']) 16)
        (Interleaved.ofChunks wordTwice (some .streamClosed) (· % 3)) 16).run
          collectMoments 9 [] = (.failed (.producerFailed .streamClosed), moments', s') ∧
      moments.map (·.shown) = moments'.map (·.shown) ∧
      moments'.map (·.found) = [⟨2, [97, 98]⟩, ⟨0, [97, 98]⟩] ∧
      (s'.cursor.source.feed.moved 2).released.outcome = some (.error .streamClosed) := by
  have hfailure : ∀ g, some Failure.streamClosed = some g →
      g.kind ≠ .brokenPipe ∧ g.kind.isScan = false := by
    rintro _ ⟨⟩
    decide
  obtain ⟨ending, ending', moments, moments', s, s', hpull, hpush, -, hmoments, -, hcopied⟩ :=
    push_refines_pull impartial_engine wordTwice hfailure (· % 3)
      (Engine.mk (.literal ['a', 'b']) 16) 16 9
  have hending : ((ofSource (Engine.mk (.literal ['a', 'b']) 16)
      (Chunks.ofList (wordTwice.filter (!·.isEmpty)) (some .streamClosed)) 16).run
        collectMoments 9 []).1 = .failed (.sourceRead .streamClosed) := by decide +kernel
  have hending' : ((ofSource (Engine.mk (.literal ['a', 'b']) 16)
      (Interleaved.ofChunks wordTwice (some .streamClosed) (· % 3)) 16).run
        collectMoments 9 []).1 = .failed (.producerFailed .streamClosed) := by decide +kernel
  have hfound : ((ofSource (Engine.mk (.literal ['a', 'b']) 16)
      (Interleaved.ofChunks wordTwice (some .streamClosed) (· % 3)) 16).run
        collectMoments 9 []).2.1.map (·.found) = [⟨2, [97, 98]⟩, ⟨0, [97, 98]⟩] := by decide +kernel
  have htaken : ((ofSource (Engine.mk (.literal ['a', 'b']) 16)
      (Interleaved.ofChunks wordTwice (some .streamClosed) (· % 3)) 16).run
        collectMoments 9 []).2.2.cursor.sourceTotal = wordTwice.flatten.length := by decide +kernel
  rw [hpull] at hending
  rw [hpush] at hending' hfound htaken
  obtain rfl : ending = _ := hending
  obtain rfl : ending' = _ := hending'
  exact ⟨moments, moments', s, s', hpull, hpush, hmoments, hfound, (hcopied 2).1 htaken⟩

end Scan

end StreamScan

import StreamScan.Proofs.Cursor.Moving
import StreamScan.Proofs.Source.Logged

/-!
# What a source says last

A source ends, it fails, or it keeps its reader waiting until that gives up.  Any of these is a
`Signal`, and a cursor keeps the first one that it gets.  Which one that is can be read off the
replies of the source: `signalOf` looks at the last of them, and a source that makes no progress has
answered *not yet* a hundred times in a row, no more and no less.

Only refills read the source.  So what is to be shown of the replies has to be shown of refills, and
of the other operations only that they leave the source and what is kept of it alone; `Abides` says
that once for all properties of this kind.

* **`Signal`**, **`signalOf`** — what is kept, and what it should be.
* **`Heard`** — the replies up to a signal, and the signal; one refill more keeps it.
* **`heard_after`** — it holds after every run, refill by refill.
* **`silent_after`** — behind a signal no run reads the source any more.
-/

namespace StreamScan

/-- What a source says last. -/
inductive Signal where
  | ended
  | failed (failure : Failure)
deriving DecidableEq, Repr

/-- What a signal tells a reader that has got everything. -/
def Signal.report {α : Type} (atEnd : α) : Signal → Except Failure α
  | ended => .ok atEnd
  | failed failure => .error failure

namespace Cursor

/-- The signal that is kept. -/
def signal {σ : Type} (c : Cursor σ) : Option Signal :=
  match c.latched with
  | some failure => some (.failed failure)
  | none => if c.ended then some .ended else none

/-- What the replies of a source come to.  A failure of the scan's own kinds is kept as it is, any
    other as the cause of a source failure; whoever got *not yet* too often in a row gives up. -/
def signalOf (log : List Reply) : Option Signal :=
  match log.getLast? with
  | none => none
  | some (.count reported _) => if reported = 0 then some .ended else none
  | some (.failed failure) =>
    some (.failed (if failure.kind.isScan then failure else .sourceRead failure))
  | some .notYet =>
    if List.replicate maxEmptyReads .notYet <:+ log then some (.failed (.noData maxEmptyReads))
    else none

/-! ## Signals of a log -/

section
variable {log : List Reply} {n : Nat}

theorem signalOf_count (log : List Reply) (reported : Int) (written : Bytes) :
    signalOf (log ++ [.count reported written]) = if reported = 0 then some .ended else none := by
  rw [signalOf, List.getLast?_concat]

theorem signalOf_failed (log : List Reply) (failure : Failure) :
    signalOf (log ++ [.failed failure]) = some (.failed (latchedFor failure)) := by
  rw [signalOf, List.getLast?_concat]
  rfl

/-- Whoever has waited since some other reply has waited no longer than that. -/
theorem le_of_replicate_suffix {α : Type} {a : α} {l : List α} (hl : l.getLast? ≠ some a)
    {m n : Nat} (h : List.replicate m a <:+ l ++ List.replicate n a) : m ≤ n := by
  refine Nat.le_of_not_lt fun hlt => hl ?_
  obtain ⟨k, rfl⟩ := Nat.exists_eq_add_of_lt hlt
  obtain ⟨front, hfront⟩ := h
  rw [show n + k + 1 = (k + 1) + n by omega, ← List.replicate_append_replicate,
    ← List.append_assoc] at hfront
  rw [← List.append_cancel_right hfront, List.replicate_succ', ← List.append_assoc,
    List.getLast?_concat]

/-- Before it has waited for too long a refill has no signal. -/
theorem signalOf_waiting (hlast : log.getLast? ≠ some .notYet) (hopen : signalOf log = none)
    (hn : n < maxEmptyReads) : signalOf (log ++ List.replicate n .notYet) = none := by
  cases n with
  | zero =>
    rw [List.replicate_zero, List.append_nil]
    exact hopen
  | succ n =>
    have hpatient : ¬ List.replicate maxEmptyReads .notYet <:+
        log ++ List.replicate (n + 1) .notYet := fun hmany =>
      Nat.not_le_of_lt hn (le_of_replicate_suffix hlast hmany)
    have hwaits : (log ++ List.replicate (n + 1) Reply.notYet).getLast? = some .notYet := by
      rw [List.replicate_succ', ← List.append_assoc, List.getLast?_concat]
    rw [signalOf, hwaits]
    exact if_neg hpatient

/-- Waiting as long as a refill may, with the last of it set apart. -/
theorem replicate_maxEmptyReads : List.replicate maxEmptyReads Reply.notYet =
    List.replicate (maxEmptyReads - 1) .notYet ++ [.notYet] := rfl

theorem signalOf_exhausted (log : List Reply) :
    signalOf (log ++ List.replicate maxEmptyReads .notYet) =
      some (.failed (.noData maxEmptyReads)) := by
  have hwaits : (log ++ List.replicate maxEmptyReads Reply.notYet).getLast? = some .notYet := by
    rw [replicate_maxEmptyReads, ← List.append_assoc, List.getLast?_concat]
  rw [signalOf, hwaits]
  exact if_pos (List.suffix_append _ _)

/-- A failure that is kept is one of the scan's own. -/
theorem isScan_of_signalOf {failure : Failure} (h : signalOf log = some (.failed failure)) :
    failure.kind.isScan = true := by
  rw [signalOf] at h
  rcases hlast : log.getLast? with _ | ⟨reported, written⟩ | _ | raised
  · simp only [hlast] at h
    exact nomatch h
  · simp only [hlast] at h
    by_cases hzero : reported = 0
    · rw [if_pos hzero] at h
      exact nomatch Option.some.inj h
    · rw [if_neg hzero] at h
      exact nomatch h
  · simp only [hlast] at h
    by_cases hmany : List.replicate maxEmptyReads Reply.notYet <:+ log
    · rw [if_pos hmany] at h
      obtain rfl := Signal.failed.inj (Option.some.inj h)
      rfl
    · rw [if_neg hmany] at h
      exact nomatch h
  · simp only [hlast] at h
    obtain rfl := Signal.failed.inj (Option.some.inj h)
    by_cases hscan : raised.kind.isScan = true
    · rw [if_pos hscan]
      exact hscan
    · rw [if_neg hscan]
      rfl

end

/-! ## Refill by refill -/

/-- What was heard from a source before a refill: the replies came to the signal, nothing came after
    one, and without a signal the last refill did not stop in the middle of waiting. -/
structure Heard (log : List Reply) (signal : Option Signal) : Prop where
  signal_eq : signal = signalOf log
  silent : ∀ before, before <+: log → before ≠ log → signalOf before = none
  settled : signal = none → log.getLast? ≠ some .notYet

theorem heard_nil : Heard [] none where
  signal_eq := rfl
  silent _ hfront hbefore := absurd (List.prefix_nil.mp hfront) hbefore
  settled _ := nofun

namespace Heard

variable {log : List Reply} {n : Nat}

/-- As long as a refill waits, there is no signal. -/
theorem waiting (h : Heard log none) (hn : n < maxEmptyReads) {before : List Reply}
    (hfront : before <+: log ++ List.replicate n .notYet) : signalOf before = none := by
  induction n generalizing before with
  | zero =>
    rw [List.replicate_zero, List.append_nil] at hfront
    by_cases hbefore : before = log
    · rw [hbefore]
      exact h.signal_eq.symm
    · exact h.silent before hfront hbefore
  | succ n ih =>
    rw [List.replicate_succ', ← List.append_assoc, List.prefix_concat_iff] at hfront
    rcases hfront with rfl | hfront
    · rw [List.append_assoc, ← List.replicate_succ']
      exact signalOf_waiting (h.settled rfl) h.signal_eq.symm hn
    · exact ih (Nat.lt_of_succ_lt hn) hfront

/-- A refill that gets a reply after some waiting. -/
theorem answered (h : Heard log none) (hn : n < maxEmptyReads) {reply : Reply}
    (hreply : reply ≠ .notYet) : Heard (log ++ List.replicate n .notYet ++ [reply])
      (signalOf (log ++ List.replicate n .notYet ++ [reply])) where
  signal_eq := rfl
  silent _ hfront hbefore :=
    h.waiting hn ((List.prefix_concat_iff.mp hfront).resolve_left hbefore)
  settled _ hlast := by
    rw [List.getLast?_concat] at hlast
    exact hreply (Option.some.inj hlast)

/-- A refill that gives up. -/
theorem exhausted (h : Heard log none) : Heard (log ++ List.replicate maxEmptyReads .notYet)
    (some (.failed (.noData maxEmptyReads))) where
  signal_eq := (signalOf_exhausted log).symm
  silent _ hfront hbefore := by
    rw [replicate_maxEmptyReads, ← List.append_assoc] at hfront hbefore
    exact h.waiting (by decide) ((List.prefix_concat_iff.mp hfront).resolve_left hbefore)
  settled hnone := nomatch hnone

end Heard

/-! ## What a cursor keeps -/

section
variable {σ : Type} {c c' : Cursor σ}

theorem signal_of_latched {failure : Failure} (h : c.latched = some failure) :
    c.signal = some (.failed failure) := by
  rw [signal, h]

theorem signal_of_ended (hended : c.ended = true) (hlatched : c.latched = none) :
    c.signal = some .ended := by
  simp only [signal, hlatched, hended, if_true]

/-- A signal is kept just if the source is over. -/
theorem signal_eq_none_iff : c.signal = none ↔ c.terminated = false := by
  rw [signal, terminated]
  cases c.latched with
  | some failure => simp
  | none => cases c.ended <;> simp

theorem exists_signal_iff : (∃ s, c.signal = some s) ↔ c.terminated = true := by
  rw [← Option.ne_none_iff_exists', ne_eq, signal_eq_none_iff, Bool.not_eq_false]

/-- The signal is what is reported. -/
theorem report_of_signal {s : Signal} (h : c.signal = some s) {α : Type} (atEnd : α) :
    c.report atEnd = s.report atEnd := by
  rw [report]
  cases hlatched : c.latched with
  | some failure =>
    rw [signal_of_latched hlatched] at h
    obtain rfl := Option.some.inj h
    rfl
  | none =>
    cases hended : c.ended with
    | true =>
      rw [signal_of_ended hended hlatched] at h
      obtain rfl := Option.some.inj h
      rfl
    | false =>
      simp only [signal, hlatched, hended] at h
      exact nomatch h

/-- Moving what was read out of `current` leaves the source alone. -/
theorem compacted_keeps (c : Cursor σ) : c.compacted.source = c.source ∧
    c.compacted.signal = c.signal ∧ c.compacted.terminated = c.terminated := by
  rw [compacted]
  split <;> exact ⟨rfl, rfl, rfl⟩

end

section
variable {σ : Type} [ByteSource σ]

/-- A refill reads the source if there is room and the source is not over, and otherwise it only
    compacts. -/
theorem fill_cases (c : Cursor σ) :
    (c.terminated = false ∧ c.fill = c.compacted.pull maxEmptyReads) ∨
      (c.compacted.capacity ≤ c.compacted.writePos ∨ c.terminated = true) ∧
        c.fill.2 = c.compacted := by
  rw [fill]
  by_cases hfull : c.compacted.capacity ≤ c.compacted.writePos
  · rw [if_pos hfull]
    exact Or.inr ⟨Or.inl hfull, rfl⟩
  · rw [if_neg hfull, c.compacted_keeps.2.2]
    cases c.terminated with
    | true => exact Or.inr ⟨Or.inr rfl, rfl⟩
    | false => exact Or.inl ⟨rfl, rfl⟩

/-! ## Whatever refills keep -/

/-- A property of a cursor that depends on its source and on what is kept of that alone, and that
    refills and positional reads keep. -/
structure Abides (P : Cursor σ → Prop) : Prop where
  frame {c c' : Cursor σ} (h : P c) (source : c'.source = c.source) (ended : c'.ended = c.ended)
    (latched : c'.latched = c.latched) : P c'
  fill {c : Cursor σ} (h : P c) : P c.fill.2
  readAt {c : Cursor σ} (h : P c) {readAt : PositionalRead σ}
    (hreadAt : ByteSource.readAt? c.source = some readAt) (offset size : Int) :
    P { c with source := (readAt offset size).2 }

namespace Abides

variable {P : Cursor σ → Prop} {c : Cursor σ}

theorem kept (hP : Abides P) : Kept P := ⟨hP.fill, hP.readAt⟩

theorem moved (hP : Abides P) {c' : Cursor σ} (h : P c) (hmoved : Moved c c') : P c' := by
  refine hP.frame h hmoved.source_eq ?_ ?_
  · rw [hmoved.frame]
  · rw [hmoved.frame]

/-- What abides holds after every run. -/
theorem after (hP : Abides P) (h : P c) (steps : List CursorStep) : P (c.after steps) :=
  hP.kept.after (fun h hmoved => hP.moved h hmoved) h steps

end Abides

/-! ## Refills of a logged source -/

/-- A refill waits, fewer times than it may, and gets another reply, which decides what is kept; or
    it waits as often as it may and gives up. -/
theorem pull_hears (attempts : Nat) {c : Cursor (Logged σ)} (hopen : c.terminated = false) :
    (∃ n < attempts, ∃ reply ≠ Reply.notYet,
        (c.pull attempts).2.source.replies =
          c.source.replies ++ List.replicate n .notYet ++ [reply] ∧
        (c.pull attempts).2.signal = signalOf (c.pull attempts).2.source.replies) ∨
      (c.pull attempts).2.source.replies = c.source.replies ++ List.replicate attempts .notYet ∧
        (c.pull attempts).2.signal = some (.failed (.noData maxEmptyReads)) := by
  induction attempts generalizing c with
  | zero => exact Or.inr ⟨(List.append_nil _).symm, rfl⟩
  | succ attempts ih =>
    have hnone : c.signal = none := signal_eq_none_iff.mpr hopen
    have hnow (reply : Reply) : c.source.replies ++ [reply] =
        c.source.replies ++ List.replicate 0 .notYet ++ [reply] := by
      rw [List.replicate_zero, List.append_nil]
    have hcount (reported : Int) (written : Bytes) : Reply.count reported written ≠ .notYet := by
      intro heq
      cases heq
    rw [pull, Logged.read_eq]
    generalize (ByteSource.read c.source.source (c.capacity - c.writePos)).2 = source
    cases (ByteSource.read c.source.source (c.capacity - c.writePos)).1 with
    | notYet =>
      have hwaited (n : Nat) : c.source.replies ++ [Reply.notYet] ++ List.replicate n .notYet =
          c.source.replies ++ List.replicate (n + 1) .notYet := by
        rw [List.append_assoc, List.replicate_succ, List.singleton_append]
      have hlater := ih (c := { c with source := ⟨source, c.source.replies ++ [.notYet]⟩ }) hopen
      simp only [hwaited] at hlater
      rcases hlater with ⟨n, hn, hheard⟩ | hheard
      · exact Or.inl ⟨n + 1, Nat.succ_lt_succ hn, hheard⟩
      · exact Or.inr hheard
    | failed failure =>
      have hfailed : Reply.failed failure ≠ .notYet := by
        intro heq
        cases heq
      refine Or.inl ⟨0, Nat.succ_pos _, .failed failure, hfailed, hnow _, ?_⟩
      exact (signalOf_failed _ failure).symm
    | count reported written =>
      simp only
      by_cases hnegative : reported < 0
      · rw [if_pos hnegative]
        refine Or.inl ⟨0, Nat.succ_pos _, .count reported written, hcount _ _, hnow _, ?_⟩
        rw [signalOf_count, if_neg (Int.ne_of_lt hnegative)]
        exact hnone
      · rw [if_neg hnegative]
        by_cases hzero : reported = 0
        · rw [if_pos hzero]
          refine Or.inl ⟨0, Nat.succ_pos _, .count reported written, hcount _ _, hnow _, ?_⟩
          rw [signalOf_count, if_pos hzero]
          exact signal_of_ended rfl (ended_latched_of_open hopen).2
        · rw [if_neg hzero]
          refine Or.inl ⟨0, Nat.succ_pos _, .count reported written, hcount _ _, hnow _, ?_⟩
          rw [signalOf_count, if_neg hzero]
          exact hnone

/-- A refill leaves the source alone and what is kept of it, or it reads the source. -/
theorem fill_hears (c : Cursor (Logged σ)) :
    (c.fill.2.source.replies = c.source.replies ∧ c.fill.2.signal = c.signal) ∨
      c.signal = none ∧ ((∃ n < maxEmptyReads, ∃ reply ≠ Reply.notYet,
          c.fill.2.source.replies = c.source.replies ++ List.replicate n .notYet ++ [reply] ∧
          c.fill.2.signal = signalOf c.fill.2.source.replies) ∨
        c.fill.2.source.replies = c.source.replies ++ List.replicate maxEmptyReads .notYet ∧
          c.fill.2.signal = some (.failed (.noData maxEmptyReads))) := by
  obtain ⟨hsource, hsignal, hterminated⟩ := c.compacted_keeps
  rcases c.fill_cases with ⟨hopen, hfill⟩ | ⟨-, hfill⟩
  · rw [hfill, ← hsource]
    exact Or.inr ⟨signal_eq_none_iff.mpr hopen, pull_hears maxEmptyReads (hterminated.trans hopen)⟩
  · rw [hfill, hsource]
    exact Or.inl ⟨rfl, hsignal⟩

/-- What was heard is kept by every operation. -/
theorem abides_heard :
    Abides fun c : Cursor (Logged σ) => Heard c.source.replies c.signal where
  frame h hsource hended hlatched := by
    rw [hsource, signal, hended, hlatched]
    exact h
  fill {c} h := by
    rcases c.fill_hears with ⟨hheard, hsignal⟩ |
      ⟨hnone, ⟨n, hn, reply, hreply, hheard, hsignal⟩ | ⟨hheard, hsignal⟩⟩
    · rw [hheard, hsignal]
      exact h
    · rw [hnone] at h
      rw [hsignal, hheard]
      exact h.answered hn hreply
    · rw [hnone] at h
      rw [hsignal, hheard]
      exact h.exhausted
  readAt h _ hreadAt offset size := by
    obtain ⟨readAt, -, rfl⟩ := Option.map_eq_some_iff.mp hreadAt
    exact h

/-- Behind a signal nothing is read, and the signal stays. -/
theorem abides_signal (log : List Reply) (s : Signal) :
    Abides fun c : Cursor (Logged σ) => c.source.replies = log ∧ c.signal = some s where
  frame h hsource hended hlatched := by
    rw [hsource, signal, hended, hlatched]
    exact h
  fill {c} h := by
    rcases c.fill_hears with ⟨hheard, hsignal⟩ | ⟨hnone, -⟩
    · rw [hheard, hsignal]
      exact h
    · rw [hnone] at h
      cases h.2
  readAt h _ hreadAt offset size := by
    obtain ⟨readAt, -, rfl⟩ := Option.map_eq_some_iff.mp hreadAt
    exact h

/-- What a source has said is not taken back. -/
theorem abides_replies (log : List Reply) :
    Abides fun c : Cursor (Logged σ) => log <+: c.source.replies where
  frame h hsource _ _ := by
    rw [hsource]
    exact h
  fill {c} h := by
    rcases c.fill_hears with ⟨hheard, -⟩ |
      ⟨-, ⟨n, -, reply, -, hheard, -⟩ | ⟨hheard, -⟩⟩
    · rw [hheard]
      exact h
    · rw [hheard, List.append_assoc]
      exact h.trans (List.prefix_append _ _)
    · rw [hheard]
      exact h.trans (List.prefix_append _ _)
  readAt h _ hreadAt offset size := by
    obtain ⟨readAt, -, rfl⟩ := Option.map_eq_some_iff.mp hreadAt
    exact h

/-- The replies of a source to its cursor during a run. -/
def replies (source : σ) (size : Int) (steps : List CursorStep) : List Reply :=
  ((ofSource (Logged.ofSource source) size).after steps).source.replies

/-- The run over a logged source and the run over the source itself. -/
theorem unlogged_after (source : σ) (size : Int) (steps : List CursorStep) :
    ((ofSource (Logged.ofSource source) size).after steps).mapSource Logged.source =
      (ofSource source size).after steps :=
  map_after Logged.sourceMap_source _ steps

/-- What a source hands out is what its replies say. -/
theorem handedOut_eq (source : σ) (size : Int) (steps : List CursorStep) :
    handedOut source size steps = (replies source size steps).flatMap Recorded.handedBy := by
  have hmap := map_after Logged.sourceMap_toRecorded (ofSource (Logged.ofSource source) size) steps
  exact congrArg (fun c => c.source.handed) hmap.symm

/-- A run that goes on adds to what was handed out. -/
theorem handedOut_prefix (source : σ) (size : Int) (steps more : List CursorStep) :
    handedOut source size steps <+: handedOut source size (steps ++ more) := by
  have hreplies : replies source size steps <+: replies source size (steps ++ more) := by
    rw [replies, replies, after_append]
    exact (abides_replies _).after (List.prefix_refl _) more
  obtain ⟨later, hlater⟩ := hreplies
  rw [handedOut_eq, handedOut_eq, ← hlater, List.flatMap_append]
  exact List.prefix_append _ _

/-- What a cursor keeps is what it has heard, after every run. -/
theorem heard_after (source : σ) (size : Int) (steps : List CursorStep) :
    Heard (replies source size steps) ((ofSource source size).after steps).signal := by
  rw [← unlogged_after]
  exact abides_heard.after (c := ofSource (Logged.ofSource source) size) heard_nil steps

/-- One refill gets nothing, or fewer than a hundred times *not yet* and then another reply, or *not
    yet* a hundred times. -/
theorem refill_hears (source : σ) (size : Int) (steps : List CursorStep) :
    replies source size (steps ++ [.fill]) = replies source size steps ∨
      (∃ n < maxEmptyReads, ∃ reply ≠ Reply.notYet, replies source size (steps ++ [.fill]) =
        replies source size steps ++ List.replicate n .notYet ++ [reply]) ∨
      replies source size (steps ++ [.fill]) =
        replies source size steps ++ List.replicate maxEmptyReads .notYet := by
  rw [replies, after_append, replies]
  generalize (ofSource (Logged.ofSource source) size).after steps = c
  show c.fill.2.source.replies = _ ∨ (∃ n < _, ∃ reply ≠ _, c.fill.2.source.replies = _) ∨
    c.fill.2.source.replies = _
  rcases c.fill_hears with ⟨hheard, -⟩ |
    ⟨-, ⟨n, hn, reply, hreply, hheard, -⟩ | ⟨hheard, -⟩⟩
  · exact Or.inl hheard
  · exact Or.inr (Or.inl ⟨n, hn, reply, hreply, hheard⟩)
  · exact Or.inr (Or.inr hheard)

/-- Behind a signal no run reads the source, and the signal stays. -/
theorem silent_after {source : σ} {size : Int} {steps : List CursorStep} {s : Signal}
    (h : ((ofSource source size).after steps).signal = some s) (more : List CursorStep) :
    replies source size (steps ++ more) = replies source size steps ∧
      ((ofSource source size).after (steps ++ more)).signal = some s := by
  rw [← unlogged_after] at h ⊢
  rw [replies, after_append]
  exact (abides_signal (replies source size steps) s).after ⟨rfl, h⟩ more

end

end Cursor

end StreamScan

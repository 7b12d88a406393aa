import StreamScan.Proofs.Feed.Interleaving
import StreamScan.Proofs.Pipe.History

/-!
# How a copy task ends

A reader waits for a copy task only while more may come, so a task that is over must not leave both
sides of its pipe open.  It has three ways to end.  A producer that came to its end has its failure,
if it has one, handed on through the pipe, whose write side is closed.  A write that was broken says
that the reader has left.  But a producer may itself fail with a broken pipe, one further up: the
task takes that for the reader's leaving and closes nothing, and whoever reads on waits for ever.

* **`Feed.Reached`** — the feeds that a task and its reader bring about, in any order of steps.
* **`Ending`** — the three ways.
* **`Over`** — what there is to know of a feed whose task is over.
* **`Reached.over`** — it holds of all of them.
-/

namespace StreamScan

namespace Feed

/-- A step of the copy task or of the reader.  A reader that has to wait takes none. -/
inductive Step (f : Feed) : Feed → Prop
  | move : Step f f.move
  | read {room : Nat} {reply : Reply} {pipe : Pipe} (hroom : 0 < room)
    (h : f.pipe.read? room = some (reply, pipe)) : Step f { f with pipe }
  | leave : Step f { f with pipe := f.pipe.closeReader }

/-- The feeds that come about when a producer is copied. -/
inductive Reached (producer : Producer) : Feed → Prop
  | start : Reached producer (.ofProducer producer)
  | step {f f' : Feed} (run : Reached producer f) (h : f.Step f') : Reached producer f'

/-- The ways in which the copy task of a feed is over with a result. -/
inductive Ending (failure : Option Failure) (f : Feed) : Except Failure Nat → Prop
  /-- The producer came to its end, and the pipe is closed with what it failed with. -/
  | closed (hclosed : f.pipe.writeClosed = true) (herror : f.pipe.writeError = failure) :
    Ending failure f (resultOf failure f.copied)
  /-- The reader has left. -/
  | left {broken : Failure} (hleft : f.pipe.readClosed = true)
    (hbroken : broken = .readSideClosed ∨ ∃ received total,
      broken = .readSideClosedAfter received total) : Ending failure f (.error broken)
  /-- The producer failed in the way in which a write is broken, and the pipe is left open. -/
  | deserted {g : Failure} (hfailure : failure = some g) (hkind : g.kind = .brokenPipe)
    (hopen : f.pipe.writeClosed = false) : Ending failure f (.error g)

/-- What there is to know of a feed whose copy task is over. -/
structure Over (failure : Option Failure) (f : Feed) (result : Except Failure Nat) : Prop where
  ending : Ending failure f result
  /-- The task does nothing any more. -/
  still : f.move = f
  /-- Whoever reads has to wait just if both sides are open. -/
  waits (room : Nat) : f.pipe.read? room = none ↔
    f.pipe.readClosed = false ∧ f.pipe.writeClosed = false
  /-- Unless the producer failed as a broken write does, one of the sides is closed, the write side
      with what the producer failed with, so nobody has to wait. -/
  served : (∀ g, failure = some g → g.kind ≠ .brokenPipe) →
    (f.pipe.writeClosed = true ∧ f.pipe.writeError = failure ∨ f.pipe.readClosed = true) ∧
      ∀ room, f.pipe.read? room ≠ none

theorem fail_broken (f : Feed) {g : Failure} (h : g.kind = .brokenPipe) :
    f.fail g = { f with outcome := some (.error g) } := by rw [fail, if_pos h]

theorem fail_other (f : Feed) {g : Failure} (h : g.kind ≠ .brokenPipe) :
    f.fail g = { f with outcome := some (.error g), pipe := f.pipe.close (some g) } := by
  rw [fail, if_neg h]

/-! ## What every step keeps -/

/-- A feed that comes about when a producer with such a failure is copied. -/
structure Copying (failure : Option Failure) (f : Feed) : Prop where
  idle : f.pipe.writing = none → f.pipe.pending = []
  working : f.outcome = none → f.pipe.writeClosed = false ∧ f.producer.failure = failure
  done : ∀ result, f.outcome = some result → f.pipe.writing = none ∧ Ending failure f result

variable {failure : Option Failure} {producer : Producer} {f f' : Feed}
  {result : Except Failure Nat}

/-- The way in which a task is over stays the same, whatever the reader does. -/
theorem Ending.keep (h : Ending failure f result)
    (hclosed : f'.pipe.writeClosed = f.pipe.writeClosed)
    (herror : f'.pipe.writeError = f.pipe.writeError) (hcopied : f'.copied = f.copied)
    (hleft : f.pipe.readClosed = true → f'.pipe.readClosed = true) : Ending failure f' result := by
  cases h with
  | closed hclosed' herror' =>
    rw [← hcopied]
    exact .closed (hclosed.trans hclosed') (herror.trans herror')
  | left hgone hbroken => exact .left (hleft hgone) hbroken
  | deserted hfailure hkind hopen => exact .deserted hfailure hkind (hclosed.trans hopen)

namespace Copying

theorem ofProducer (producer : Producer) : Copying producer.failure (.ofProducer producer) where
  idle _ := rfl
  working _ := ⟨rfl, rfl⟩
  done _ h := nomatch h

theorem outcome_eq (h : Copying failure f) {total : Nat} (hwriting : f.pipe.writing = some total) :
    f.outcome = none := by
  cases houtcome : f.outcome with
  | none => rfl
  | some result =>
    have hnone := (h.done result houtcome).1
    rw [hwriting] at hnone
    exact nomatch hnone

/-- A task that is over, with nothing being written. -/
theorem of_outcome (hidle : f.pipe.pending = []) (hwriting : f.pipe.writing = none)
    (hover : f.outcome = some result) (hending : Ending failure f result) : Copying failure f where
  idle _ := hidle
  working hworking := by
    rw [hover] at hworking
    cases hworking
  done result' hover' := by
    obtain rfl := Option.some.inj (hover.symm.trans hover')
    exact ⟨hwriting, hending⟩

/-- A task that is not over. -/
theorem of_working (hidle : f.pipe.writing = none → f.pipe.pending = [])
    (hworking : f.outcome = none) (hopen : f.pipe.writeClosed = false)
    (hfailure : f.producer.failure = failure) : Copying failure f where
  idle := hidle
  working _ := ⟨hopen, hfailure⟩
  done result hover := by
    rw [hworking] at hover
    cases hover

/-- A task that looks after its write goes on, or finds that the reader has left. -/
theorem settled (h : Copying failure f) : Copying failure f.settled := by
  rcases f.settled_cases with
    ⟨total, hwriting, hpending, heq⟩ | ⟨total, -, -, hgone, heq⟩ | ⟨-, heq⟩
  · have hworking := h.outcome_eq hwriting
    obtain ⟨hopen, hfailure⟩ := h.working hworking
    rw [heq]
    exact of_working (fun _ => hpending) hworking hopen hfailure
  · rw [heq, fail_broken _ rfl]
    exact of_outcome rfl rfl rfl (.left hgone (Or.inr ⟨_, _, rfl⟩))
  · rw [heq]
    exact h

/-- A task whose producer fails passes the failure on, unless it takes it for a broken write. -/
theorem fail {g : Failure} (h : Copying (some g) f) (hworking : f.outcome = none)
    (hwriting : f.pipe.writing = none) : Copying (some g) (f.fail g) := by
  by_cases hkind : g.kind = .brokenPipe
  · rw [fail_broken f hkind]
    exact of_outcome (h.idle hwriting) hwriting rfl (.deserted rfl hkind (h.working hworking).1)
  · rw [fail_other f hkind]
    exact of_outcome (h.idle hwriting) hwriting rfl (.closed rfl rfl)

/-- A task that goes on begins a write, finds that the reader has left, or is over with the producer
    at its end. -/
theorem produced (h : Copying failure f) : Copying failure f.produced := by
  by_cases hbusy : (f.outcome.isSome || f.pipe.writing.isSome) = true
  · rw [produced_of_busy hbusy]
    exact h
  · rw [Feed.produced, if_neg hbusy]
    simp only [Bool.or_eq_true, not_or, Option.not_isSome_iff_eq_none] at hbusy
    obtain ⟨hworking, hwriting⟩ := hbusy
    obtain ⟨hopen, hfailure⟩ := h.working hworking
    cases hchunks : f.producer.chunks with
    | cons chunk rest =>
      cases hgone : f.pipe.readClosed with
      | true =>
        have hbegin : f.pipe.begin chunk = .error .readSideClosed := by
          rw [Pipe.begin, if_neg (Bool.eq_false_iff.mp hopen), if_pos hgone]
        simp only [hbegin]
        rw [fail_broken _ rfl]
        exact of_outcome (h.idle hwriting) hwriting rfl (.left hgone (Or.inl rfl))
      | false =>
        have hbegin : f.pipe.begin chunk =
            .ok { f.pipe with pending := chunk, writing := some chunk.length } := by
          rw [Pipe.begin, if_neg (Bool.eq_false_iff.mp hopen),
            if_neg (Bool.eq_false_iff.mp hgone)]
        simp only [hbegin]
        refine of_working (fun hidle => ?_) hworking hopen hfailure
        cases hidle
    | nil =>
      cases failure with
      | none =>
        simp only [hfailure]
        exact of_outcome (h.idle hwriting) hwriting rfl (.closed rfl rfl)
      | some g =>
        simp only [hfailure]
        exact h.fail hworking hwriting

/-- One step keeps all of it. -/
theorem step (h : Copying failure f) (hstep : f.Step f') : Copying failure f' := by
  cases hstep with
  | move =>
    rw [move]
    split
    · exact h.settled
    · exact h.produced
  | read hroom hread =>
    rcases Pipe.read?_eq_some hread with ⟨hpending, -, rfl⟩ | ⟨-, rfl, -⟩
    · have hbusy : f.pipe.writing ≠ none := fun hnone => hpending (h.idle hnone)
      exact ⟨fun hnone => absurd hnone hbusy, h.working,
        fun result hover => absurd (h.done result hover).1 hbusy⟩
    · exact h
  | leave =>
    refine ⟨h.idle, h.working, fun result hover => ?_⟩
    obtain ⟨hwriting, hending⟩ := h.done result hover
    exact ⟨hwriting, hending.keep rfl rfl rfl fun _ => rfl⟩

/-- What a task that is over leaves behind. -/
theorem finished (h : Copying failure f) (hover : f.outcome = some result) :
    Over failure f result := by
  obtain ⟨hwriting, hending⟩ := h.done result hover
  have hpending := h.idle hwriting
  have hwaits : ∀ room, f.pipe.read? room = none ↔
      f.pipe.readClosed = false ∧ f.pipe.writeClosed = false := by
    intro room
    rw [Pipe.read?, if_neg (not_not_intro hpending)]
    cases f.pipe.readClosed with
    | true => simp
    | false =>
      cases f.pipe.writeClosed with
      | false => simp
      | true => cases f.pipe.writeError <;> simp
  refine ⟨hending, ?_, hwaits, fun hkind => ?_⟩
  · rw [move, hwriting, if_neg (by simp), produced_of_busy (by simp [hover])]
  · have hclosed : f.pipe.writeClosed = true ∧ f.pipe.writeError = failure ∨
        f.pipe.readClosed = true := by
      cases hending with
      | closed hclosed herror => exact Or.inl ⟨hclosed, herror⟩
      | left hgone hbroken => exact Or.inr hgone
      | deserted hfailure hbroken hopen => exact absurd hbroken (hkind _ hfailure)
    refine ⟨hclosed, fun room hnone => ?_⟩
    obtain ⟨hreader, hwriter⟩ := (hwaits room).mp hnone
    rcases hclosed with ⟨hclosed, -⟩ | hgone
    · rw [hwriter] at hclosed
      cases hclosed
    · rw [hreader] at hgone
      cases hgone

end Copying

/-! ## Every order of the steps -/

theorem Reached.copying (h : Reached producer f) : Copying producer.failure f := by
  induction h with
  | start => exact .ofProducer producer
  | step _ hstep ih => exact ih.step hstep

/-- However the steps of a copy task and its reader are ordered, when the task is over the pipe says
    so to whoever reads on, unless the producer failed as a broken write does. -/
theorem Reached.over (h : Reached producer f) (hover : f.outcome = some result) :
    Over producer.failure f result := h.copying.finished hover

/-- A producer that fails behind its first chunk, which the reader takes. -/
theorem Reached.over_failed : ∃ f,
    Reached (.ofChunks [[97, 98]] (some (.raised .runtime "upstream went away"))) f ∧
      Over (some (.raised .runtime "upstream went away")) f
        (.error (.raised .runtime "upstream went away")) := by
  have hreached : Reached (.ofChunks [[97, 98]] (some (.raised .runtime "upstream went away"))) _ :=
    .step (.step (.step (.step .start .move) (.read Nat.two_pos rfl)) .move) .move
  exact ⟨_, hreached, hreached.over rfl⟩

/-- The same producer with a failure of the kind of a broken write: the task is over, both sides of
    the pipe are open and the reader waits. -/
theorem Reached.over_deserted : ∃ f,
    Reached (.ofChunks [[97, 98]] (some (.raised .brokenPipe "upstream went away"))) f ∧
      f.outcome = some (.error (.raised .brokenPipe "upstream went away")) ∧
      f.pipe.writeClosed = false ∧ f.pipe.readClosed = false ∧
      ∀ room, f.pipe.read? room = none := by
  have hreached :
      Reached (.ofChunks [[97, 98]] (some (.raised .brokenPipe "upstream went away"))) _ :=
    .step (.step (.step (.step .start .move) (.read Nat.two_pos rfl)) .move) .move
  exact ⟨_, hreached, rfl, rfl, rfl, fun _ => rfl⟩

end Feed

end StreamScan

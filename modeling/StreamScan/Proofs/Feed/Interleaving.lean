import StreamScan.Feed
import StreamScan.Source.Chunks
import StreamScan.Proofs.Cursor.Lockstep

/-!
# The copy task and its reader, in any order

A copy task and the reader of its pipe wait for each other at two places only: the task until its
write was taken, the reader until something is pending or the write side is closed.  Everywhere else
either may go on first.  The moves of the task cannot be told apart by when between two reads they
are made, so a schedule of them says before each read how many there are; moves that the task cannot
make come to nothing, and those that the reader waits for are made in any case.

Whatever the schedule is, the reader gets the chunks in their order, in the pieces that an iterator
over them would hand out, and then their end.  `Offers` is what every move and every read keeps:
what is left of the chunks is pending or with the producer, and the count of the task is right.

* **`Feed.move`**, **`Interleaved`** — one move of the copy task, and a feed with a schedule.
* **`Offers.moved`**, **`Offers.read`** — moves change nothing of what is offered, and a read takes
  from the first chunk.
* **`Offers.released`** — how the copy task ends when the reader has left.
* **`Feeds`** — sources that are feeds: a feed with a schedule, and a feed by itself.
* **`mirror_feeds`** — such a source answers as an iterator over the chunks.
-/

namespace StreamScan

/-- What is left of a sequence of chunks, when some bytes of one before them are pending. -/
def leftOver (pending : Bytes) (chunks : List Bytes) : List Bytes :=
  if pending = [] then chunks else pending :: chunks

theorem leftOver_nil (chunks : List Bytes) : leftOver [] chunks = chunks := if_pos rfl

theorem leftOver_of_ne_nil {pending : Bytes} (h : pending ≠ []) (chunks : List Bytes) :
    leftOver pending chunks = pending :: chunks := if_neg h

theorem flatten_leftOver (pending : Bytes) (chunks : List Bytes) :
    (leftOver pending chunks).flatten = pending ++ chunks.flatten := by
  by_cases h : pending = []
  · rw [h, leftOver_nil, List.nil_append]
  · rw [leftOver_of_ne_nil h, List.flatten_cons]

theorem nil_not_mem_leftOver {pending : Bytes} {chunks : List Bytes} (h : [] ∉ chunks) :
    [] ∉ leftOver pending chunks := by
  by_cases hpending : pending = []
  · rw [hpending, leftOver_nil]
    exact h
  · rw [leftOver_of_ne_nil hpending, List.mem_cons, not_or]
    exact ⟨fun hnil => hpending hnil.symm, h⟩

/-! ## Moves -/

namespace Feed

/-- One move of the copy task: if it has a write, it looks whether that is over; otherwise it begins
    the next one, or ends. -/
def move (f : Feed) : Feed := if f.pipe.writing.isSome then f.settled else f.produced

/-- So many moves. -/
def moved : Nat → Feed → Feed
  | 0, f => f
  | moves + 1, f => moved moves f.move

theorem remaining_moved_le (moves : Nat) (f : Feed) : (f.moved moves).remaining ≤ f.remaining := by
  induction moves generalizing f with
  | zero => exact Nat.le_refl _
  | succ moves ih =>
    refine Nat.le_trans (ih f.move) ?_
    rw [move]
    split
    · exact f.remaining_settled_le
    · exact f.remaining_produced_le

end Feed

/-- A feed together with the number of moves that its copy task makes before each of the reads that
    are to come. -/
structure Interleaved where
  feed : Feed
  schedule : Nat → Nat

namespace Interleaved

/-- Nothing of the chunks has been copied. -/
def ofChunks (chunks : List Bytes) (failure : Option Failure) (schedule : Nat → Nat) :
    Interleaved := ⟨.ofProducer (.ofChunks chunks failure), schedule⟩

/-- The copy task makes its moves, and then the pipe is read. -/
def read (s : Interleaved) (room : Nat) : Reply × Interleaved :=
  let answer := (s.feed.moved (s.schedule 0)).read room
  (answer.1, ⟨answer.2, fun reads => s.schedule (reads + 1)⟩)

instance : FiniteSource Interleaved where
  read := read
  remaining s := s.feed.remaining
  remaining_read s room :=
    Nat.le_trans (FiniteSource.remaining_read (s.feed.moved (s.schedule 0)) room)
      (Feed.remaining_moved_le _ _)

end Interleaved

/-- Each state of a source is that of a feed, and a read of it is a read of the feed after some
    moves of the copy task. -/
structure Feeds {τ : Type} [ByteSource τ] (feed : τ → Feed) : Prop where
  sequential (t : τ) : ByteSource.readAt? t = none
  read (t : τ) (room : Nat) : ∃ moves, ((feed t).moved moves).read room =
    ((ByteSource.read t room).1, feed (ByteSource.read t room).2)

/-- A feed by itself: its task makes only the moves that the reader waits for. -/
theorem feeds_self : Feeds (fun f : Feed => f) where
  sequential _ := rfl
  read _ _ := ⟨0, rfl⟩

theorem feeds_interleaved : Feeds Interleaved.feed where
  sequential _ := rfl
  read t _ := ⟨t.schedule 0, rfl⟩

/-! ## What a feed offers -/

namespace Feed

/-- The result of copying chunks when all of them were taken. -/
def resultOf (failure : Option Failure) (taken : Nat) : Except Failure Nat :=
  match failure with
  | none => .ok taken
  | some failure => .error failure

/-- A feed with an open reader, of which so many bytes were taken: it offers the chunks that are
    left, and then their end. -/
structure Offers (failure : Option Failure) (left : List Bytes) (taken : Nat) (f : Feed) :
    Prop where
  left_eq : left = leftOver f.pipe.pending f.producer.chunks
  readOpen : f.pipe.readClosed = false
  idle : f.pipe.writing = none → f.pipe.pending = []
  /-- What is pending belongs to the write that waits. -/
  counted : f.copied + f.pipe.writing.getD 0 = taken + f.pipe.pending.length
  working : f.outcome = none → f.pipe.writeClosed = false ∧ f.producer.failure = failure
  done : ∀ result, f.outcome = some result → result = resultOf failure taken ∧
    f.producer.chunks = [] ∧ f.pipe.writing = none ∧ f.pipe.writeClosed = true ∧
    f.pipe.writeError = failure

variable {failure : Option Failure} {left : List Bytes} {taken : Nat} {f : Feed}

theorem offers_ofProducer (p : Producer) :
    Offers p.failure p.chunks 0 (.ofProducer p) where
  left_eq := (leftOver_nil p.chunks).symm
  readOpen := rfl
  idle _ := rfl
  counted := rfl
  working _ := ⟨rfl, rfl⟩
  done := nofun

/-! ### What a move does -/

/-- A task whose write was taken goes on, one whose reader has left before that ends, and any other
    stays as it is. -/
theorem settled_cases (f : Feed) :
    (∃ total, f.pipe.writing = some total ∧ f.pipe.pending = [] ∧
      f.settled = { f with pipe := { f.pipe with writing := none }, copied := f.copied + total }) ∨
      (∃ total, f.pipe.writing = some total ∧ f.pipe.pending ≠ [] ∧ f.pipe.readClosed = true ∧
        f.settled = ({ f with
          pipe := { f.pipe with pending := [], writing := none } } : Feed).fail
            (.readSideClosedAfter (total - f.pipe.pending.length) total)) ∨
      (f.pipe.writing = none ∨ f.pipe.pending ≠ [] ∧ f.pipe.readClosed = false) ∧
        f.settled = f := by
  rw [settled, Pipe.settle]
  cases hwriting : f.pipe.writing with
  | none => exact Or.inr (Or.inr ⟨Or.inl rfl, rfl⟩)
  | some total =>
    by_cases hpending : f.pipe.pending = []
    · simp only [if_pos hpending]
      exact Or.inl ⟨total, rfl, hpending, rfl⟩
    · simp only [if_neg hpending]
      cases hgone : f.pipe.readClosed with
      | true => exact Or.inr (Or.inl ⟨total, rfl, hpending, rfl, by rw [if_pos rfl]⟩)
      | false => exact Or.inr (Or.inr ⟨Or.inr ⟨hpending, rfl⟩, by rw [if_neg Bool.false_ne_true]⟩)

/-- A task that has no write begins one, or it ends and closes the pipe. -/
theorem produced_cases (hfailure : ∀ g, failure = some g → g.kind ≠ .brokenPipe)
    (h : Offers failure left taken f) (hworking : f.outcome = none)
    (hwriting : f.pipe.writing = none) :
    (∃ chunk rest, f.producer.chunks = chunk :: rest ∧ chunk ≠ [] ∧ f.produced = { f with
      producer := f.producer.rest
      pipe := { f.pipe with pending := chunk, writing := some chunk.length } }) ∨
      f.producer.chunks = [] ∧ f.produced = { f with
        pipe := f.pipe.close failure
        outcome := some (resultOf failure f.copied) } := by
  obtain ⟨hopen, hproducer⟩ := h.working hworking
  have hfree : ¬ (f.outcome.isSome || f.pipe.writing.isSome) = true := by
    rw [hworking, hwriting]
    exact Bool.false_ne_true
  rw [produced, if_neg hfree]
  cases hchunks : f.producer.chunks with
  | cons chunk rest =>
    have hnonempty : chunk ≠ [] := by
      rintro rfl
      exact f.producer.nil_not_mem (hchunks ▸ List.mem_cons_self)
    have hbegin : f.pipe.begin chunk =
        .ok { f.pipe with pending := chunk, writing := some chunk.length } := by
      rw [Pipe.begin, if_neg (Bool.eq_false_iff.mp hopen),
        if_neg (Bool.eq_false_iff.mp h.readOpen)]
    simp only [hbegin]
    exact Or.inl ⟨chunk, rest, rfl, hnonempty, rfl⟩
  | nil =>
    rw [hproducer]
    cases failure with
    | none => exact Or.inr ⟨rfl, rfl⟩
    | some g =>
      refine Or.inr ⟨rfl, ?_⟩
      simp only [fail, if_neg (hfailure g rfl)]
      rfl

/-- A task that is over, or waits for its write, begins nothing. -/
theorem produced_of_busy (h : (f.outcome.isSome || f.pipe.writing.isSome) = true) :
    f.produced = f := by
  rw [produced, if_pos h]

namespace Offers

theorem outcome_eq (h : Offers failure left taken f) {total : Nat}
    (hwriting : f.pipe.writing = some total) : f.outcome = none := by
  cases houtcome : f.outcome with
  | none => rfl
  | some result =>
    have hnone := (h.done result houtcome).2.2.1
    rw [hwriting] at hnone
    exact nomatch hnone

theorem settled (h : Offers failure left taken f) : Offers failure left taken f.settled := by
  rcases f.settled_cases with ⟨total, hwriting, hpending, heq⟩ | ⟨total, -, -, hgone, -⟩ | ⟨-, heq⟩
  · have hcounted := h.counted
    have hworking := h.outcome_eq hwriting
    rw [hwriting, Option.getD_some] at hcounted
    rw [heq]
    refine ⟨h.left_eq, h.readOpen, fun _ => hpending, hcounted, h.working, fun result hover => ?_⟩
    rw [show f.outcome = some result from hover] at hworking
    exact nomatch hworking
  · rw [h.readOpen] at hgone
    exact nomatch hgone
  · rw [heq]
    exact h

theorem produced (hfailure : ∀ g, failure = some g → g.kind ≠ .brokenPipe)
    (h : Offers failure left taken f) : Offers failure left taken f.produced := by
  by_cases hbusy : (f.outcome.isSome || f.pipe.writing.isSome) = true
  · rw [produced_of_busy hbusy]
    exact h
  · simp only [Bool.or_eq_true, not_or, Option.not_isSome_iff_eq_none] at hbusy
    obtain ⟨hworking, hwriting⟩ := hbusy
    have hpending := h.idle hwriting
    have hleft := h.left_eq
    have hcounted := h.counted
    rw [hpending, leftOver_nil] at hleft
    rw [hwriting, hpending, Option.getD_none, List.length_nil] at hcounted
    rcases produced_cases hfailure h hworking hwriting with
      ⟨chunk, rest, hchunks, hnonempty, heq⟩ | ⟨hchunks, heq⟩
    · have hrest : f.producer.rest.chunks = rest := congrArg List.tail hchunks
      rw [heq]
      refine ⟨?_, h.readOpen, nofun, ?_, fun _ => h.working hworking, fun result hover => ?_⟩
      · show left = leftOver chunk f.producer.rest.chunks
        rw [hrest, leftOver_of_ne_nil hnonempty, hleft, hchunks]
      · show f.copied + chunk.length = taken + chunk.length
        omega
      · rw [show f.outcome = some result from hover] at hworking
        exact nomatch hworking
    · rw [heq]
      refine ⟨h.left_eq, h.readOpen, h.idle, h.counted, nofun, fun result hover => ?_⟩
      obtain rfl := Option.some.inj hover
      rw [show f.copied = taken from hcounted]
      exact ⟨rfl, hchunks, hwriting, rfl, rfl⟩

theorem moved (hfailure : ∀ g, failure = some g → g.kind ≠ .brokenPipe)
    (h : Offers failure left taken f) (moves : Nat) :
    Offers failure left taken (f.moved moves) := by
  induction moves generalizing f with
  | zero => exact h
  | succ moves ih =>
    rw [Feed.moved, Feed.move]
    split
    · exact ih h.settled
    · exact ih (h.produced hfailure)

/-! ### Reads -/

/-- A reader need not wait when something is pending or the write side is closed. -/
theorem isSome_read?_iff (h : Offers failure left taken f) (room : Nat) :
    (f.pipe.read? room).isSome = true ↔ f.pipe.pending ≠ [] ∨ f.pipe.writeClosed = true := by
  rw [Pipe.read?, if_neg (Bool.eq_false_iff.mp h.readOpen)]
  by_cases hpending : f.pipe.pending = []
  · rw [if_neg (not_not_intro hpending)]
    cases f.pipe.writeClosed with
    | false => simp [hpending]
    | true => cases f.pipe.writeError <;> simp
  · rw [if_pos hpending]
    simp [hpending]

/-- After the moves that the reader waits for it need not wait any more. -/
theorem ready_advanced (hfailure : ∀ g, failure = some g → g.kind ≠ .brokenPipe)
    (h : Offers failure left taken f) (hpending : f.pipe.pending = []) :
    f.advanced.pipe.pending ≠ [] ∨ f.advanced.pipe.writeClosed = true := by
  have hsettled := h.settled
  have hwriting : f.settled.pipe.writing = none := by
    rcases f.settled_cases with ⟨total, -, -, heq⟩ | ⟨total, -, hsome, -⟩ | ⟨hidle, heq⟩
    · rw [heq]
    · exact absurd hpending hsome
    · rw [heq]
      exact hidle.resolve_right fun hwaits => hwaits.1 hpending
  rw [advanced]
  generalize f.settled = f at hsettled hwriting ⊢
  cases houtcome : f.outcome with
  | some result =>
    rw [produced_of_busy (by rw [houtcome]; rfl)]
    exact Or.inr (hsettled.done result houtcome).2.2.2.1
  | none =>
    rcases produced_cases hfailure hsettled houtcome hwriting with
      ⟨chunk, rest, -, hnonempty, heq⟩ | ⟨-, heq⟩
    · rw [heq]
      exact Or.inl hnonempty
    · rw [heq]
      exact Or.inr rfl

/-- What a reader that need not wait is answered: a part of the first chunk, or the end. -/
theorem readPipe (h : Offers failure left taken f) {room : Nat}
    (hready : f.pipe.pending ≠ [] ∨ f.pipe.writeClosed = true) :
    (∃ chunk rest, left = chunk :: rest ∧
      (f.readPipe room).1 = .ofBytes (chunk.take room) ∧
      Offers failure (leftOver (chunk.drop room) rest) (taken + (chunk.take room).length)
        (f.readPipe room).2) ∨
      left = [] ∧ Offers failure [] taken (f.readPipe room).2 ∧
        (f.readPipe room).1 =
          failure.elim (.ofBytes []) fun failure => .failed (.producerFailed failure) := by
  by_cases hpending : f.pipe.pending = []
  · -- the task is over, so there are no chunks any more
    have hclosed := hready.resolve_left (not_not_intro hpending)
    obtain ⟨result, houtcome⟩ : ∃ result, f.outcome = some result := by
      cases houtcome : f.outcome with
      | some result => exact ⟨result, rfl⟩
      | none =>
        rw [(h.working houtcome).1] at hclosed
        exact nomatch hclosed
    obtain ⟨-, hchunks, -, -, herror⟩ := h.done result houtcome
    have hnone : left = [] := by
      rw [h.left_eq, hpending, leftOver_nil, hchunks]
    have hread : f.readPipe room =
        (failure.elim (.ofBytes []) fun failure => .failed (.producerFailed failure), f) := by
      rw [Feed.readPipe, Pipe.read, Pipe.read?, if_neg (not_not_intro hpending),
        if_neg (Bool.eq_false_iff.mp h.readOpen), if_pos hclosed, herror]
      cases failure with
      | none => rfl
      | some g => rfl
    rw [hread]
    exact Or.inr ⟨hnone, hnone ▸ h, rfl⟩
  · have hread : f.readPipe room = (.ofBytes (f.pipe.pending.take room),
        { f with pipe := { f.pipe with pending := f.pipe.pending.drop room } }) := by
      rw [Feed.readPipe, Pipe.read, Pipe.read?, if_pos hpending]
      rfl
    have hleft := h.left_eq
    have hcounted := h.counted
    rw [leftOver_of_ne_nil hpending] at hleft
    have hbusy : f.pipe.writing ≠ none := fun hnone => hpending (h.idle hnone)
    rw [hread]
    refine Or.inl ⟨f.pipe.pending, f.producer.chunks, hleft, rfl, rfl, h.readOpen,
      fun hnone => absurd hnone hbusy, ?_, h.working, fun result hover => ?_⟩
    · have hsplit := congrArg List.length (List.take_append_drop room f.pipe.pending)
      rw [List.length_append] at hsplit
      show f.copied + f.pipe.writing.getD 0 = _ + (f.pipe.pending.drop room).length
      omega
    · exact absurd (h.done result hover).2.2.1 hbusy

/-- A read takes from the first chunk that is left, or finds the end. -/
theorem read (hfailure : ∀ g, failure = some g → g.kind ≠ .brokenPipe)
    (h : Offers failure left taken f) (room : Nat) :
    (∃ chunk rest, left = chunk :: rest ∧ (f.read room).1 = .ofBytes (chunk.take room) ∧
      Offers failure (leftOver (chunk.drop room) rest) (taken + (chunk.take room).length)
        (f.read room).2) ∨
      left = [] ∧ Offers failure [] taken (f.read room).2 ∧
        (f.read room).1 =
          failure.elim (.ofBytes []) fun failure => .failed (.producerFailed failure) := by
  rw [Feed.read]
  by_cases hready : (f.pipe.read? room).isSome = true
  · rw [if_pos hready]
    exact h.readPipe ((h.isSome_read?_iff room).mp hready)
  · rw [if_neg hready]
    have hpending : f.pipe.pending = [] := by
      by_cases hpending : f.pipe.pending = []
      · exact hpending
      · exact absurd ((h.isSome_read?_iff room).mpr (Or.inl hpending)) hready
    exact (h.settled.produced hfailure).readPipe (h.ready_advanced hfailure hpending)

end Offers

/-! ### The end of the copy task -/

/-- A task without a write whose reader has left ends with its next move. -/
theorem produced_abandoned (hworking : f.outcome = none) (hwriting : f.pipe.writing = none)
    (hopen : f.pipe.writeClosed = false) (hgone : f.pipe.readClosed = true) :
    (f.producer.chunks = [] → f.produced.outcome = some (resultOf f.producer.failure f.copied)) ∧
      (f.producer.chunks ≠ [] → ∃ broken, f.produced.outcome = some (.error broken) ∧
        broken.kind = .brokenPipe) := by
  have hfree : ¬ (f.outcome.isSome || f.pipe.writing.isSome) = true := by
    rw [hworking, hwriting]
    exact Bool.false_ne_true
  rw [produced, if_neg hfree]
  cases hchunks : f.producer.chunks with
  | nil =>
    refine ⟨fun _ => ?_, fun hsome => absurd rfl hsome⟩
    cases f.producer.failure with
    | none => rfl
    | some g => rfl
  | cons chunk rest =>
    have hbegin : f.pipe.begin chunk = .error .readSideClosed := by
      rw [Pipe.begin, if_neg (Bool.eq_false_iff.mp hopen), if_pos hgone]
    simp only [hbegin]
    exact ⟨fun hnil => absurd hnil (List.cons_ne_nil _ _), fun _ => ⟨.readSideClosed, rfl, rfl⟩⟩

/-- When the reader leaves, the copy task ends: with the result of copying everything if everything
    was taken, and otherwise with a broken write. -/
theorem Offers.released (h : Offers failure left taken f) :
    (left = [] → f.released.outcome = some (resultOf failure taken)) ∧
      (left ≠ [] → ∃ broken, f.released.outcome = some (.error broken) ∧
        broken.kind = .brokenPipe) := by
  have hleft := h.left_eq
  have hcounted := h.counted
  rw [Feed.released, advanced]
  rcases ({ f with pipe := f.pipe.closeReader } : Feed).settled_cases with
    ⟨total, hwriting, hpending, heq⟩ | ⟨total, hwriting, hpending, -, heq⟩ | ⟨hidle, heq⟩
  · -- the write was taken, which the task notices now
    have hwriting' : f.pipe.writing = some total := hwriting
    have hpending' : f.pipe.pending = [] := hpending
    have hworking := h.outcome_eq hwriting'
    obtain ⟨hopen, hproducer⟩ := h.working hworking
    rw [hwriting', hpending', Option.getD_some, List.length_nil] at hcounted
    rw [hpending', leftOver_nil] at hleft
    rw [heq, hleft, ← hproducer, ← show f.copied + total = taken from hcounted]
    exact produced_abandoned
      (f := { f with
        pipe := { f.pipe.closeReader with writing := none }
        copied := f.copied + total }) hworking rfl hopen rfl
  · -- the write is broken
    have hpending' : f.pipe.pending ≠ [] := hpending
    rw [leftOver_of_ne_nil hpending'] at hleft
    rw [heq, produced_of_busy rfl, hleft]
    exact ⟨fun hnil => absurd hnil (List.cons_ne_nil _ _), fun _ => ⟨_, rfl, rfl⟩⟩
  · have hwriting : f.pipe.writing = none :=
      hidle.resolve_right fun hwaits => Bool.false_ne_true hwaits.2.symm
    have hpending := h.idle hwriting
    rw [hwriting, hpending, Option.getD_none, List.length_nil] at hcounted
    rw [hpending, leftOver_nil] at hleft
    rw [heq]
    by_cases hworking : f.outcome = none
    · obtain ⟨hopen, hproducer⟩ := h.working hworking
      rw [hleft, ← hproducer, ← show f.copied = taken from hcounted]
      exact produced_abandoned (f := { f with pipe := f.pipe.closeReader }) hworking hwriting hopen
        rfl
    · -- the task was over before
      obtain ⟨result, houtcome⟩ := Option.ne_none_iff_exists'.mp hworking
      obtain ⟨hresult, hchunks, -⟩ := h.done result houtcome
      rw [produced_of_busy (by simp [houtcome])]
      refine ⟨fun _ => ?_, fun hsome => absurd (hleft.trans hchunks) hsome⟩
      rw [← hresult]
      exact houtcome

end Feed

/-! ## Chunks and feeds -/

/-- What a sequence of chunks has still to hand out. -/
structure Chunks.Holds (failure : Option Failure) (left : List Bytes) (s : Chunks) : Prop where
  left_eq : left = leftOver s.pending s.chunks
  nil_not_mem : [] ∉ s.chunks
  failure : s.failure = failure

/-- A read of a sequence of chunks takes from the first that is left, or finds the end. -/
theorem Chunks.Holds.read {failure : Option Failure} {left : List Bytes} {s : Chunks}
    (h : s.Holds failure left) (room : Nat) :
    (∃ chunk rest, left = chunk :: rest ∧ (s.read room).1 = .ofBytes (chunk.take room) ∧
      (s.read room).2.Holds failure (leftOver (chunk.drop room) rest)) ∨
      left = [] ∧ (s.read room).1 = failure.elim (.ofBytes []) .failed := by
  obtain ⟨pending, chunks, failed⟩ := s
  obtain ⟨hleft, hnonempty, hfailure⟩ := h
  simp only at hleft hnonempty hfailure
  cases pending with
  | cons byte pending =>
    rw [leftOver_of_ne_nil (List.cons_ne_nil _ _)] at hleft
    exact Or.inl ⟨byte :: pending, chunks, hleft, rfl, rfl, hnonempty, hfailure⟩
  | nil =>
    rw [leftOver_nil] at hleft
    cases chunks with
    | nil =>
      refine Or.inr ⟨hleft, ?_⟩
      rw [← hfailure]
      cases failed with
      | none => rfl
      | some g => rfl
    | cons chunk rest =>
      cases chunk with
      | nil => exact absurd List.mem_cons_self hnonempty
      | cons byte chunk =>
        have hrest : [] ∉ rest := fun hmem => hnonempty (List.mem_cons_of_mem _ hmem)
        exact Or.inl ⟨byte :: chunk, rest, hleft, rfl, rfl, hrest, hfailure⟩

section
variable {τ : Type} (feed : τ → Feed) (failure : Option Failure) (total taken : Nat)

/-- A sequence of chunks and a feed of which the same was taken, with the same chunks left and so
    many bytes in all. -/
def Offering (s : Chunks) (t : τ) : Prop :=
  ∃ left, s.Holds failure left ∧ (feed t).Offers failure left taken ∧ [] ∉ left ∧
    taken + left.flatten.length = total

/-- Everything was taken, and both are over. -/
def Exhausted (_ : Chunks) (t : τ) : Prop := (feed t).Offers failure [] taken ∧ taken = total

end

/-- A failure of the producer is kept with the same cause, whether it was raised by the chunks or
    comes through the pipe. -/
theorem latchedFor_alike {g : Failure} (h : g.kind.isScan = false) :
    (Cursor.latchedFor g).Alike (Cursor.latchedFor (.producerFailed g)) := by
  have hpulled : Cursor.latchedFor g = .sourceRead g := by
    rw [Cursor.latchedFor, h, if_neg Bool.false_ne_true]
  rw [hpulled]
  exact Or.inr ⟨rfl, rfl, rfl⟩

/-- However the moves of its copy task are scheduled, a feed answers as an iterator over the same
    chunks. -/
theorem mirror_feeds {τ : Type} [ByteSource τ] {feed : τ → Feed} (hfeeds : Feeds feed)
    {failure : Option Failure}
    (hfailure : ∀ g, failure = some g → g.kind ≠ .brokenPipe ∧ g.kind.isScan = false)
    (total : Nat) :
    Mirror (Offering feed failure total) (Exhausted feed failure total) where
  sequential _ := rfl
  sequential' := hfeeds.sequential
  read {taken room s t} h hroom := by
    obtain ⟨left, hholds, hoffers, hnonempty, htotal⟩ := h
    have hbroken : ∀ g, failure = some g → g.kind ≠ .brokenPipe := fun g hg => (hfailure g hg).1
    obtain ⟨moves, hread⟩ := hfeeds.read t room
    have hoffered := (hoffers.moved hbroken moves).read hbroken room
    rw [hread] at hoffered
    show Together _ _ taken (s.read room) (ByteSource.read t room)
    rcases hholds.read room with ⟨chunk, rest, hleft, hpiece, hholds'⟩ | ⟨hleft, hend⟩
    · rcases hoffered with ⟨chunk', rest', hleft', hpiece', hoffers'⟩ | ⟨hleft', -⟩
      · obtain ⟨rfl, rfl⟩ := List.cons.inj (hleft.symm.trans hleft')
        have hsome : chunk ≠ [] := fun hnil => hnonempty (hleft ▸ hnil ▸ List.mem_cons_self)
        have hrest : [] ∉ rest := fun hmem => hnonempty (hleft ▸ List.mem_cons_of_mem _ hmem)
        have hbytes : chunk.take room ≠ [] := by
          intro hnil
          rcases List.take_eq_nil_iff.mp hnil with hzero | hnone
          · omega
          · exact hsome hnone
        have hsplit := congrArg List.length (List.take_append_drop room chunk)
        rw [List.length_append] at hsplit
        rw [hleft, List.flatten_cons, List.length_append] at htotal
        rw [show s.read room = (_, (s.read room).2) from Prod.ext hpiece rfl,
          show ByteSource.read t room = (_, (ByteSource.read t room).2) from Prod.ext hpiece' rfl]
        refine .piece hbytes ⟨_, hholds', hoffers', nil_not_mem_leftOver hrest, ?_⟩
        rw [flatten_leftOver, List.length_append]
        omega
      · exact absurd (hleft.symm.trans hleft') (List.cons_ne_nil _ _)
    · rcases hoffered with ⟨chunk', rest', hleft', -⟩ | ⟨-, hoffers', hend'⟩
      · exact absurd (hleft'.symm.trans hleft) (List.cons_ne_nil _ _)
      · rw [hleft, List.flatten_nil, List.length_nil] at htotal
        have hover : Exhausted feed failure total taken (s.read room).2
          (ByteSource.read t room).2 := ⟨hoffers', htotal⟩
        rw [show s.read room = (_, (s.read room).2) from Prod.ext hend rfl,
          show ByteSource.read t room = (_, (ByteSource.read t room).2) from Prod.ext hend' rfl]
        cases failure with
        | none => exact .ended hover
        | some g => exact .failed (latchedFor_alike (hfailure g rfl).2) hover

end StreamScan

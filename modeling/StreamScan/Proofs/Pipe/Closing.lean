import StreamScan.Proofs.Pipe.History

/-!
# A write side that was closed with an error

Whoever closes the write side of a pipe with an error wants its reader to fail, and not to take what
was written so far for everything.  The reader may still have bytes to take by then, and the write
side may be closed again before it has taken them.  `Failing` is what such a pipe has for its
reader, however the steps after that close are ordered: first what is pending, and then what the
*latest* close gave.  So the error is sure to arrive unless the write side is closed once more
without one.

* **`verdict`**, **`standing`** — what a reader is told at last, and the error that decides it.
* **`Run.silent`** — no write begins behind a close.
* **`Run.failing`** — every run with such a close leaves a pipe of this kind behind.
-/

namespace StreamScan

namespace Pipe

/-- What a reader is told that has taken everything: a failure, if the write side was closed with an
    error, and otherwise the end. -/
def verdict : Option Failure → Reply
  | some error => .failed (.producerFailed error)
  | none => .count 0 []

/-- What the write side is closed with after `later`, when it was closed with `error` before. -/
def standing (error : Failure) (later : History) : Option Failure :=
  (lastClose later).getD (some error)

/-- What a pipe has for its reader when its write side was closed with `error` between `earlier` and
    `later`. -/
structure Failing (error : Failure) (earlier later : History) (p : Pipe) : Prop where
  silent : written later = []
  /-- An open reader has got all that was written, except for what is pending. -/
  left : p.readClosed = false → received (earlier ++ later) ++ p.pending = written earlier
  /-- An open reader takes what is pending. -/
  taken (room : Nat) : p.readClosed = false → p.pending ≠ [] →
    p.read? room = some (.ofBytes (p.pending.take room), { p with pending := p.pending.drop room })
  /-- When nothing is pending an open reader does not wait. -/
  told (room : Nat) : p.readClosed = false → p.pending = [] →
    p.read? room = some (verdict (standing error later), p)
  /-- A read finds the end only when the latest close before it gave no error. -/
  ended {between rest : History} {bytes : Bytes}
    (split : later = between ++ .read (.count 0 bytes) :: rest) : standing error between = none
  /-- An error stands as long as nobody closes the write side without one, and no read finds the
      end. -/
  lasting : .closed none ∉ later →
    (∃ failure, standing error later = some failure ∧
      (failure = error ∨ .closed (some failure) ∈ later)) ∧
    ∀ bytes, .read (.count 0 bytes) ∉ later

/-! ## The latest close -/

section
variable {later : History}

theorem lastClose_append_closed (earlier : History) (given : Option Failure) (later : History) :
    lastClose (earlier ++ .closed given :: later) = some ((lastClose later).getD given) := by
  simp [lastClose, Event.closing, List.getLast?_append, List.getLast?_cons]

/-- The latest close is one of them. -/
theorem closed_mem_of_lastClose {given : Option Failure} (h : lastClose later = some given) :
    .closed given ∈ later := by
  obtain ⟨event, hmem, hclosing⟩ := List.mem_filterMap.mp (List.mem_of_getLast? h)
  cases event with
  | closed error => exact Option.some.inj hclosing ▸ hmem
  | _ => exact nomatch hclosing

/-- The error that stands is the one before, or that of a close since. -/
theorem standing_of_not_mem (error : Failure) (h : .closed none ∉ later) :
    ∃ failure, standing error later = some failure ∧
      (failure = error ∨ .closed (some failure) ∈ later) := by
  rw [standing]
  cases hlast : lastClose later with
  | none => exact ⟨error, rfl, Or.inl rfl⟩
  | some given =>
    have hmem := closed_mem_of_lastClose hlast
    cases given with
    | none => exact absurd hmem h
    | some failure => exact ⟨failure, rfl, Or.inr hmem⟩

end

/-! ## Behind a close -/

/-- A step of a pipe whose write side is closed writes nothing. -/
theorem Step.written_eq_nil {p p' : Pipe} {event : Event} (h : p.Step event p')
    (hclosed : p.writeClosed = true) : event.written = [] := by
  cases h with
  | begin idle hbegin =>
    rw [Pipe.begin, if_pos hclosed] at hbegin
    cases hbegin
  | _ => rfl

namespace Run

variable {earlier later : History} {error : Failure} {p : Pipe}

/-- Nobody opens the write side again. -/
theorem writeClosed_of_mem {given : Option Failure}
    (h : Run (earlier ++ .closed given :: later) p) : p.writeClosed = true := by
  have hlast := h.lastClose_eq
  rw [lastClose_append_closed] at hlast
  by_cases hclosed : p.writeClosed = true
  · exact hclosed
  · rw [if_neg hclosed] at hlast
    exact nomatch hlast

theorem writeError_eq {given : Option Failure} (h : Run (earlier ++ .closed given :: later) p) :
    p.writeError = (lastClose later).getD given := by
  have hlast := h.lastClose_eq
  rw [lastClose_append_closed, if_pos h.writeClosed_of_mem] at hlast
  exact (Option.some.inj hlast).symm

/-- No write begins behind a close of the write side. -/
theorem silent {given : Option Failure} (h : Run (earlier ++ .closed given :: later) p) :
    written later = [] := by
  rw [written, List.flatMap_eq_nil_iff]
  intro event hmem
  obtain ⟨between, rest, rfl⟩ := List.append_of_mem hmem
  rw [← List.cons_append, ← List.append_assoc] at h
  obtain ⟨q, q', hrun, hstep⟩ := h.split rfl
  exact hstep.written_eq_nil hrun.writeClosed_of_mem

/-- A reader whose side is open has all that was written, up to what is pending. -/
theorem left {given : Option Failure} (h : Run (earlier ++ .closed given :: later) p)
    (hopen : p.readClosed = false) :
    received (earlier ++ later) ++ p.pending = written earlier := by
  have hsound : ¬ Broken (earlier ++ .closed given :: later) := by
    intro hbroken
    rw [(h.kept.broken hbroken).2.2.1] at hopen
    exact nomatch hopen
  calc received (earlier ++ later) ++ p.pending
      = received (earlier ++ .closed given :: later) ++ p.pending := by
        simp [received, Event.received]
    _ = written (earlier ++ .closed given :: later) := h.kept.whole hsound
    _ = written earlier ++ written later := by simp [written, Event.written]
    _ = written earlier := by rw [h.silent, List.append_nil]

/-- A read that finds the end after a close with an error comes after a close without one. -/
theorem standing_of_ended {between rest : History} {bytes : Bytes}
    (h : Run (earlier ++ .closed (some error) :: (between ++ .read (.count 0 bytes) :: rest)) p) :
    standing error between = none := by
  rw [← List.cons_append, ← List.append_assoc] at h
  obtain ⟨hlast, -⟩ := h.ended rfl
  rw [lastClose_append_closed] at hlast
  exact Option.some.inj hlast

/-- A pipe whose write side was closed with an error gives its reader what is pending, and then what
    the latest close gave. -/
theorem failing (h : Run (earlier ++ .closed (some error) :: later) p) :
    Failing error earlier later p where
  silent := h.silent
  left := h.left
  taken room _ hpending := by rw [read?, if_pos hpending]
  told room hopen hpending := by
    have herror : standing error later = p.writeError := h.writeError_eq.symm
    rw [read?, if_neg (not_not_intro hpending), if_neg (Bool.eq_false_iff.mp hopen),
      if_pos h.writeClosed_of_mem, herror]
    cases p.writeError with
    | some failure => rfl
    | none => rfl
  ended hsplit := by
    subst hsplit
    exact h.standing_of_ended
  lasting hnone := by
    refine ⟨standing_of_not_mem error hnone, ?_⟩
    intro bytes hmem
    obtain ⟨between, rest, rfl⟩ := List.append_of_mem hmem
    have hbetween : .closed none ∉ between := fun hclosed =>
      hnone (List.mem_append_left _ hclosed)
    obtain ⟨failure, hstands, -⟩ := standing_of_not_mem error hbetween
    rw [h.standing_of_ended] at hstands
    cases hstands

/-- A producer that fails behind its second byte: the reader takes both bytes and fails. -/
theorem failing_drained :
    Run [.began [97, 98], .closed (some (.raised .runtime "boom")), .read (.ofBytes [97, 98]),
        .read (.failed (.producerFailed (.raised .runtime "boom")))]
      ⟨[], some 2, true, some (.raised .runtime "boom"), false⟩ ∧
    Failing (.raised .runtime "boom") [.began [97, 98]] [.read (.ofBytes [97, 98]),
        .read (.failed (.producerFailed (.raised .runtime "boom")))]
      ⟨[], some 2, true, some (.raised .runtime "boom"), false⟩ := by
  have hbegan : Run [.began [97, 98]] ⟨[97, 98], some 2, false, none, false⟩ :=
    .step .start (.begin rfl rfl)
  have hclosed : Run [.began [97, 98], .closed (some (.raised .runtime "boom"))]
      ⟨[97, 98], some 2, true, some (.raised .runtime "boom"), false⟩ := .step hbegan (.close _)
  have hread : Run [.began [97, 98], .closed (some (.raised .runtime "boom")),
        .read (.ofBytes [97, 98])] ⟨[], some 2, true, some (.raised .runtime "boom"), false⟩ :=
    .step hclosed (.read Nat.two_pos rfl)
  have hfailed : Run [.began [97, 98], .closed (some (.raised .runtime "boom")),
        .read (.ofBytes [97, 98]), .read (.failed (.producerFailed (.raised .runtime "boom")))]
      ⟨[], some 2, true, some (.raised .runtime "boom"), false⟩ :=
    .step hread (.read Nat.one_pos rfl)
  exact ⟨hfailed, failing hfailed⟩

/-- The same failure when the write side is closed once more without an error: the reader takes both
    bytes and finds the end. -/
theorem failing_forgotten :
    Run [.began [97, 98], .closed (some (.raised .runtime "boom")), .closed none,
        .read (.ofBytes [97, 98]), .read (.count 0 [])] ⟨[], some 2, true, none, false⟩ := by
  have hbegan : Run [.began [97, 98]] ⟨[97, 98], some 2, false, none, false⟩ :=
    .step .start (.begin rfl rfl)
  have hclosed : Run [.began [97, 98], .closed (some (.raised .runtime "boom")), .closed none]
      ⟨[97, 98], some 2, true, none, false⟩ := .step (.step hbegan (.close _)) (.close none)
  have hread : Run [.began [97, 98], .closed (some (.raised .runtime "boom")), .closed none,
      .read (.ofBytes [97, 98])] ⟨[], some 2, true, none, false⟩ :=
    .step hclosed (.read Nat.two_pos rfl)
  exact .step hread (.read Nat.one_pos rfl)

end Run

end Pipe

end StreamScan

import StreamScan.Pipe

/-!
# What a pipe hands over

A writer and a reader take their steps in any order: between any two steps of the one the other may
take some of its own.  A `History` lists what has happened, the first step first, and `Run` says
which histories there are and which pipe each of them leaves behind.  A write has two steps, since
its writer may have to wait: it begins, and later the writer wakes and the write returns.

What can be said of a history follows from what its pipe keeps of it.  `Kept` is the connection
between the two: one step keeps it (`Kept.step`), so every run does (`Run.kept`).

* **`written`**, **`received`** — the bytes of the writes that began, and those that were read.
* **`Underway`** — the write that waits: the latest that began, and all before it was received.
* **`Run.handsOver`** — the reader gets the bytes that were written, in order and none of them
  twice; what a write returns, and when a read finds the end, says how far that has come.
-/

namespace StreamScan

namespace Pipe

/-- A step of the writer or the reader, with what came of it. -/
inductive Event where
  /-- A write began: the bytes are pending. -/
  | began (data : Bytes)
  /-- A write was refused before it began. -/
  | refused (failure : Failure)
  /-- The write that waited returned. -/
  | returned (result : Except Failure Nat)
  /-- The write side was closed, with an error or without. -/
  | closed (error : Option Failure)
  /-- A read was answered. -/
  | read (reply : Reply)
  /-- The read side was closed. -/
  | closedReader

/-- What happened to a pipe, the first step first. -/
abbrev History := List Event

/-- One step of the writer or the reader.  There is one writer, so a write begins only when none
    waits; closing waits for nobody. -/
inductive Step (p : Pipe) : Event → Pipe → Prop
  | begin {data : Bytes} {p' : Pipe} (idle : p.writing = none) (h : p.begin data = .ok p') :
    Step p (.began data) p'
  | refuse {data : Bytes} {failure : Failure} (idle : p.writing = none)
    (h : p.begin data = .error failure) : Step p (.refused failure) p
  | wake {result : Except Failure Nat} {p' : Pipe} (h : p.settle = (some result, p')) :
    Step p (.returned result) p'
  | read {room : Nat} {reply : Reply} {p' : Pipe} (hroom : 0 < room)
    (h : p.read? room = some (reply, p')) : Step p (.read reply) p'
  | close (error : Option Failure) : Step p (.closed error) (p.close error)
  | closeReader : Step p .closedReader p.closeReader

/-- The histories of a pipe, each with the pipe that it leaves behind. -/
inductive Run : History → Pipe → Prop
  | start : Run [] .empty
  | step {events : History} {p p' : Pipe} {event : Event} (run : Run events p)
    (h : p.Step event p') : Run (events ++ [event]) p'

/-! ## What a step does -/

section
variable {p p' : Pipe}

theorem begin_eq_ok {data : Bytes} (h : p.begin data = .ok p') :
    p.readClosed = false ∧ p' = { p with pending := data, writing := some data.length } := by
  rw [begin] at h
  by_cases hwrite : p.writeClosed = true
  · rw [if_pos hwrite] at h
    exact nomatch h
  · rw [if_neg hwrite] at h
    by_cases hread : p.readClosed = true
    · rw [if_pos hread] at h
      exact nomatch h
    · rw [if_neg hread] at h
      exact ⟨Bool.eq_false_iff.mpr hread, (Except.ok.inj h).symm⟩

/-- A write that waited returns when all of it was taken, or when the read side is closed. -/
theorem settle_eq_some {result : Except Failure Nat} (h : p.settle = (some result, p')) :
    ∃ total, p.writing = some total ∧
      ((p.pending = [] ∧ result = .ok total ∧ p' = { p with writing := none }) ∨
        (p.pending ≠ [] ∧ p.readClosed = true ∧
          result = .error (.readSideClosedAfter (total - p.pending.length) total) ∧
          p' = { p with pending := [], writing := none })) := by
  rw [settle] at h
  cases hwriting : p.writing with
  | none =>
    rw [hwriting] at h
    exact nomatch h
  | some total =>
    simp only [hwriting] at h
    refine ⟨total, rfl, ?_⟩
    by_cases hpending : p.pending = []
    · rw [if_pos hpending] at h
      obtain ⟨hresult, rfl⟩ := Prod.mk.inj h
      exact Or.inl ⟨hpending, (Option.some.inj hresult).symm, rfl⟩
    · rw [if_neg hpending] at h
      by_cases hread : p.readClosed = true
      · rw [if_pos hread] at h
        obtain ⟨hresult, rfl⟩ := Prod.mk.inj h
        exact Or.inr ⟨hpending, hread, (Option.some.inj hresult).symm, rfl⟩
      · rw [if_neg hread] at h
        exact nomatch h

/-- What a read is answered: bytes as long as any are pending, otherwise an answer that leaves the
    pipe as it is. -/
theorem read?_eq_some {room : Nat} {reply : Reply} (h : p.read? room = some (reply, p')) :
    (p.pending ≠ [] ∧ reply = .ofBytes (p.pending.take room) ∧
      p' = { p with pending := p.pending.drop room }) ∨
    (p.pending = [] ∧ p' = p ∧ ((∃ failure, reply = .failed failure) ∨
      reply = .count 0 [] ∧ p.readClosed = false ∧ p.writeClosed = true ∧
        p.writeError = none)) := by
  rw [read?] at h
  by_cases hpending : p.pending = []
  · rw [if_neg (not_not_intro hpending)] at h
    refine Or.inr ⟨hpending, ?_⟩
    by_cases hread : p.readClosed = true
    · rw [if_pos hread] at h
      obtain ⟨rfl, rfl⟩ := Prod.mk.inj (Option.some.inj h)
      exact ⟨rfl, Or.inl ⟨_, rfl⟩⟩
    · rw [if_neg hread] at h
      by_cases hwrite : p.writeClosed = true
      · rw [if_pos hwrite] at h
        cases herror : p.writeError with
        | some failure =>
          rw [herror] at h
          obtain ⟨rfl, rfl⟩ := Prod.mk.inj (Option.some.inj h)
          exact ⟨rfl, Or.inl ⟨_, rfl⟩⟩
        | none =>
          rw [herror] at h
          obtain ⟨rfl, rfl⟩ := Prod.mk.inj (Option.some.inj h)
          exact ⟨rfl, Or.inr ⟨rfl, Bool.eq_false_iff.mpr hread, hwrite, rfl⟩⟩
      · rw [if_neg hwrite] at h
        exact nomatch h
  · rw [if_pos hpending] at h
    obtain ⟨rfl, rfl⟩ := Prod.mk.inj (Option.some.inj h)
    exact Or.inl ⟨hpending, rfl, rfl⟩

end

/-! ## What a history says -/

namespace Event

/-- The bytes that a write brings when it begins. -/
def written : Event → Bytes
  | began data => data
  | _ => []

/-- The bytes that a read returns. -/
def received : Event → Bytes
  | read (.count _ bytes) => bytes
  | _ => []

/-- What the write side was closed with. -/
def closing : Event → Option (Option Failure)
  | closed error => some error
  | _ => none

/-- A step that may come between the beginning of a write and its return. -/
def isBetween : Event → Bool
  | began _ | returned _ => false
  | _ => true

end Event

/-- The bytes of all writes that began. -/
def written (events : History) : Bytes := events.flatMap Event.written

/-- The bytes of all reads. -/
def received (events : History) : Bytes := events.flatMap Event.received

/-- What the latest close of the write side gave. -/
def lastClose (events : History) : Option (Option Failure) :=
  (events.filterMap Event.closing).getLast?

/-- A write that began was broken. -/
def Broken (events : History) : Prop := ∃ failure, Event.returned (.error failure) ∈ events

/-- The write of `data` is the latest that began, it has not returned, and what was written before
    it was received. -/
structure Underway (events : History) (earlier data : Bytes) : Prop where
  split : ∃ front back, events = front ++ .began data :: back ∧ earlier = written front ∧
    ∀ event ∈ back, event.isBetween = true
  arrived : earlier <+: received events

section
variable {events : History} {event : Event}

@[simp] theorem written_concat : written (events ++ [event]) = written events ++ event.written := by
  simp [written]

@[simp] theorem received_concat :
    received (events ++ [event]) = received events ++ event.received := by
  simp [received]

theorem lastClose_concat :
    lastClose (events ++ [event]) = event.closing.or (lastClose events) := by
  rw [lastClose, lastClose, List.filterMap_append]
  cases h : event.closing with
  | none => simp [h]
  | some error => simp [h]

theorem broken_concat : Broken (events ++ [event]) ↔
    Broken events ∨ ∃ failure, event = .returned (.error failure) := by
  constructor
  · rintro ⟨failure, hmem⟩
    rcases List.mem_append.mp hmem with hbefore | hlast
    · exact Or.inl ⟨failure, hbefore⟩
    · exact Or.inr ⟨failure, (List.mem_singleton.mp hlast).symm⟩
  · rintro (⟨failure, hbefore⟩ | ⟨failure, rfl⟩)
    · exact ⟨failure, List.mem_append_left _ hbefore⟩
    · exact ⟨failure, List.mem_append_right _ List.mem_cons_self⟩

/-- What comes between the beginning of a write and its return writes nothing. -/
theorem written_eq_nil {back : History} (h : ∀ event ∈ back, event.isBetween = true) :
    written back = [] := by
  rw [written, List.flatMap_eq_nil_iff]
  intro event hmem
  have hbetween := h event hmem
  cases event with
  | began data => exact nomatch hbetween
  | _ => rfl

/-- All that was written ends with the write that is under way. -/
theorem Underway.written_eq {earlier data : Bytes} (h : Underway events earlier data) :
    written events = earlier ++ data := by
  obtain ⟨front, back, rfl, rfl, hbetween⟩ := h.split
  rw [written, List.flatMap_append, List.flatMap_cons]
  show written front ++ (data ++ written back) = _
  rw [written_eq_nil hbetween, List.append_nil]

/-- A write stays under way until it returns. -/
theorem Underway.concat {earlier data : Bytes} (h : Underway events earlier data)
    (hbetween : event.isBetween = true) : Underway (events ++ [event]) earlier data := by
  obtain ⟨front, back, rfl, hearlier, hback⟩ := h.split
  refine ⟨⟨front, back ++ [event], ?_, hearlier, ?_⟩, ?_⟩
  · rw [List.append_assoc, List.cons_append]
  · intro other hmem
    rcases List.mem_append.mp hmem with hbefore | hlast
    · exact hback other hbefore
    · rw [List.mem_singleton.mp hlast]
      exact hbetween
  · rw [received_concat]
    exact h.arrived.trans (List.prefix_append _ _)

end

/-! ## What a pipe keeps of its history -/

/-- What a pipe keeps of its history. -/
structure Kept (events : History) (p : Pipe) : Prop where
  /-- What was received and what is pending are what was written. -/
  whole : ¬ Broken events → received events ++ p.pending = written events
  /-- A broken write took back what was pending, and no other begins. -/
  broken : Broken events → received events <+: written events ∧ p.pending = [] ∧
    p.readClosed = true ∧ p.writing = none
  waiting : ∀ total, p.writing = some total →
    ∃ earlier data, Underway events earlier data ∧ total = data.length
  /-- Bytes are pending only while their write waits. -/
  idle : p.writing = none → p.pending = []

theorem kept_start : Kept [] .empty where
  whole _ := rfl
  broken := by
    rintro ⟨failure, hmem⟩
    exact absurd hmem List.not_mem_nil
  waiting _ h := nomatch h
  idle _ := rfl

namespace Kept

variable {events : History} {event : Event} {p p' : Pipe}

/-- Nothing is broken while a write waits. -/
theorem not_broken (h : Kept events p) {total : Nat} (hwriting : p.writing = some total) :
    ¬ Broken events := by
  intro hbroken
  obtain ⟨-, -, -, hnone⟩ := h.broken hbroken
  rw [hwriting] at hnone
  exact nomatch hnone

/-- What is pending of the write that waits is what the reader has not received of it. -/
theorem received_eq (h : Kept events p) {total : Nat} (hwriting : p.writing = some total) :
    ∃ earlier data, Underway events earlier data ∧ total = data.length ∧
      p.pending.length ≤ total ∧
      received events = earlier ++ data.take (total - p.pending.length) := by
  obtain ⟨earlier, data, hunderway, htotal⟩ := h.waiting total hwriting
  have hwhole := h.whole (h.not_broken hwriting)
  obtain ⟨part, hpart⟩ := hunderway.arrived
  rw [hunderway.written_eq, ← hpart, List.append_assoc] at hwhole
  have hdata := List.append_cancel_left hwhole
  have hlength := congrArg List.length hdata
  rw [List.length_append] at hlength
  refine ⟨earlier, data, hunderway, htotal, by omega, ?_⟩
  rw [← hpart, ← hdata, List.take_left' (by omega)]

/-- A step that writes nothing, receives nothing and leaves what is pending as it is. -/
theorem still (h : Kept events p) (hwritten : event.written = []) (hreceived : event.received = [])
    (hbetween : event.isBetween = true) (hpending : p'.pending = p.pending)
    (hwriting : p'.writing = p.writing) (hread : p.readClosed = true → p'.readClosed = true) :
    Kept (events ++ [event]) p' := by
  have hbroken : Broken (events ++ [event]) ↔ Broken events := by
    rw [broken_concat]
    constructor
    · rintro (hbefore | ⟨failure, rfl⟩)
      · exact hbefore
      · exact nomatch hbetween
    · exact Or.inl
  constructor
  · intro hsound
    rw [received_concat, written_concat, hreceived, hwritten, List.append_nil, List.append_nil,
      hpending]
    exact h.whole (mt hbroken.mpr hsound)
  · intro hcase
    obtain ⟨hfront, hnil, hclosed, hnone⟩ := h.broken (hbroken.mp hcase)
    rw [received_concat, written_concat, hreceived, hwritten, List.append_nil, List.append_nil,
      hpending, hwriting]
    exact ⟨hfront, hnil, hread hclosed, hnone⟩
  · intro total htotal
    rw [hwriting] at htotal
    obtain ⟨earlier, data, hunderway, hlength⟩ := h.waiting total htotal
    exact ⟨earlier, data, hunderway.concat hbetween, hlength⟩
  · intro hnone
    rw [hwriting] at hnone
    rw [hpending]
    exact h.idle hnone

/-- A write begins when nothing is pending and nothing was broken. -/
theorem begin (h : Kept events p) {data : Bytes} (hidle : p.writing = none)
    (hread : p.readClosed = false) :
    Kept (events ++ [.began data]) { p with pending := data, writing := some data.length } := by
  have hsound : ¬ Broken events := by
    intro hbroken
    rw [(h.broken hbroken).2.2.1] at hread
    exact nomatch hread
  have hall := h.whole hsound
  rw [h.idle hidle, List.append_nil] at hall
  have hsound' : ¬ Broken (events ++ [.began data]) := by
    rw [broken_concat]
    rintro (hbroken | ⟨failure, hevent⟩)
    · exact hsound hbroken
    · exact nomatch hevent
  constructor
  · intro _
    rw [received_concat, written_concat, hall]
    show (written events ++ []) ++ data = written events ++ data
    rw [List.append_nil]
  · intro hbroken
    exact absurd hbroken hsound'
  · intro total htotal
    refine ⟨written events, data, ⟨⟨events, [], rfl, rfl, ?_⟩, ?_⟩,
      (Option.some.inj htotal).symm⟩
    · intro event hmem
      exact absurd hmem List.not_mem_nil
    · rw [received_concat, hall]
      exact List.prefix_append _ _
  · intro hnone
    exact nomatch hnone

/-- The write that waited returns, whole or broken. -/
theorem wake (h : Kept events p) {result : Except Failure Nat}
    (hsettle : p.settle = (some result, p')) : Kept (events ++ [.returned result]) p' := by
  obtain ⟨total, hwriting, hcases⟩ := settle_eq_some hsettle
  have hsound := h.not_broken hwriting
  have hwhole := h.whole hsound
  rcases hcases with ⟨hpending, rfl, rfl⟩ | ⟨-, hread, rfl, rfl⟩
  · have hsound' : ¬ Broken (events ++ [.returned (.ok total)]) := by
      rw [broken_concat]
      rintro (hbroken | ⟨failure, hevent⟩)
      · exact hsound hbroken
      · exact nomatch Event.returned.inj hevent
    constructor
    · intro _
      rw [received_concat, written_concat]
      show (received events ++ []) ++ p.pending = written events ++ []
      rw [List.append_nil, List.append_nil, hwhole]
    · intro hbroken
      exact absurd hbroken hsound'
    · intro _ hnone
      exact nomatch hnone
    · intro _
      exact hpending
  · constructor
    · intro hnot
      exact absurd (broken_concat.mpr (Or.inr ⟨_, rfl⟩)) hnot
    · intro _
      refine ⟨?_, rfl, hread, rfl⟩
      rw [received_concat, written_concat, ← hwhole]
      show received events ++ [] <+: (received events ++ p.pending) ++ []
      rw [List.append_nil, List.append_nil]
      exact List.prefix_append _ _
    · intro _ hnone
      exact nomatch hnone
    · intro _
      rfl

/-- A read takes from the front of what is pending, or takes nothing. -/
theorem read (h : Kept events p) {room : Nat} {reply : Reply}
    (hread : p.read? room = some (reply, p')) : Kept (events ++ [.read reply]) p' := by
  rcases read?_eq_some hread with ⟨hpending, rfl, rfl⟩ | ⟨-, rfl, hreply⟩
  · -- bytes are pending, so their write waits and nothing was broken
    have hsound : ¬ Broken events := fun hbroken => hpending (h.broken hbroken).2.1
    have hsound' : ¬ Broken (events ++ [.read (.ofBytes (p.pending.take room))]) := by
      rw [broken_concat]
      rintro (hbroken | ⟨failure, hevent⟩)
      · exact hsound hbroken
      · exact nomatch hevent
    constructor
    · intro _
      rw [received_concat, written_concat, ← h.whole hsound]
      show (received events ++ p.pending.take room) ++ p.pending.drop room =
        (received events ++ p.pending) ++ []
      rw [List.append_nil, List.append_assoc, List.take_append_drop]
    · intro hbroken
      exact absurd hbroken hsound'
    · intro total htotal
      obtain ⟨earlier, data, hunderway, hlength⟩ := h.waiting total htotal
      exact ⟨earlier, data, hunderway.concat rfl, hlength⟩
    · intro hnone
      exact absurd (h.idle hnone) hpending
  · have hreceived : (Event.read reply).received = [] := by
      rcases hreply with ⟨failure, rfl⟩ | ⟨rfl, -⟩
      · rfl
      · rfl
    exact h.still rfl hreceived rfl rfl rfl id

/-- Every step keeps the connection between a pipe and its history. -/
theorem step (h : Kept events p) (hstep : p.Step event p') : Kept (events ++ [event]) p' := by
  cases hstep with
  | begin idle hbegin =>
    obtain ⟨hread, rfl⟩ := begin_eq_ok hbegin
    exact h.begin idle hread
  | refuse idle hbegin => exact h.still rfl rfl rfl rfl rfl id
  | wake hsettle => exact h.wake hsettle
  | read hroom hread => exact h.read hread
  | close error => exact h.still rfl rfl rfl rfl rfl id
  | closeReader => exact h.still rfl rfl rfl rfl rfl fun _ => rfl

end Kept

/-! ## The two sides -/

/-- Only closing the write side changes it, and then to what was given. -/
theorem Step.writeSide {p p' : Pipe} {event : Event} (h : p.Step event p') :
    (event.closing = none ∧ p'.writeClosed = p.writeClosed ∧ p'.writeError = p.writeError) ∨
      event.closing = some p'.writeError ∧ p'.writeClosed = true := by
  cases h with
  | begin idle hbegin =>
    obtain ⟨-, rfl⟩ := begin_eq_ok hbegin
    exact Or.inl ⟨rfl, rfl, rfl⟩
  | refuse idle hbegin => exact Or.inl ⟨rfl, rfl, rfl⟩
  | wake hsettle =>
    obtain ⟨total, -, ⟨-, -, rfl⟩ | ⟨-, -, -, rfl⟩⟩ := settle_eq_some hsettle
    · exact Or.inl ⟨rfl, rfl, rfl⟩
    · exact Or.inl ⟨rfl, rfl, rfl⟩
  | read hroom hread =>
    rcases read?_eq_some hread with ⟨-, -, rfl⟩ | ⟨-, rfl, -⟩
    · exact Or.inl ⟨rfl, rfl, rfl⟩
    · exact Or.inl ⟨rfl, rfl, rfl⟩
  | close error => exact Or.inr ⟨rfl, rfl⟩
  | closeReader => exact Or.inl ⟨rfl, rfl, rfl⟩

/-- A read side that is open was not closed by this step, and was open before it. -/
theorem Step.readSide {p p' : Pipe} {event : Event} (h : p.Step event p')
    (hopen : p'.readClosed = false) : p.readClosed = false ∧ event ≠ .closedReader := by
  cases h with
  | begin idle hbegin =>
    obtain ⟨hread, -⟩ := begin_eq_ok hbegin
    exact ⟨hread, nofun⟩
  | refuse idle hbegin => exact ⟨hopen, nofun⟩
  | wake hsettle =>
    obtain ⟨total, -, ⟨-, -, rfl⟩ | ⟨-, -, -, rfl⟩⟩ := settle_eq_some hsettle
    · exact ⟨hopen, nofun⟩
    · exact ⟨hopen, nofun⟩
  | read hroom hread =>
    rcases read?_eq_some hread with ⟨-, -, rfl⟩ | ⟨-, rfl, -⟩
    · exact ⟨hopen, nofun⟩
    · exact ⟨hopen, nofun⟩
  | close error => exact ⟨hopen, nofun⟩
  | closeReader => exact nomatch hopen

/-- A step from a pipe with nothing pending brings no bytes. -/
theorem Step.received_eq_nil {p p' : Pipe} {event : Event} (h : p.Step event p')
    (hpending : p.pending = []) : event.received = [] := by
  cases h with
  | read hroom hread =>
    rcases read?_eq_some hread with ⟨hsome, -⟩ | ⟨-, -, ⟨failure, rfl⟩ | ⟨rfl, -⟩⟩
    · exact absurd hpending hsome
    · rfl
    · rfl
  | _ => rfl

namespace Run

variable {events before after : History} {event : Event} {p : Pipe}

theorem kept (h : Run events p) : Kept events p := by
  induction h with
  | start => exact kept_start
  | step _ hstep ih => exact ih.step hstep

/-- The write side is closed once somebody has closed it, with the error of the latest close. -/
theorem lastClose_eq (h : Run events p) :
    lastClose events = if p.writeClosed = true then some p.writeError else none := by
  induction h with
  | start => rfl
  | step _ hstep ih =>
    rw [lastClose_concat]
    rcases hstep.writeSide with ⟨hnone, hsame, herror⟩ | ⟨hsome, hclosed⟩
    · rw [hnone, hsame, herror]
      exact ih
    · rw [hsome, if_pos hclosed]
      rfl

/-- While the read side is open, nobody has closed it. -/
theorem closedReader_not_mem (h : Run events p) (hopen : p.readClosed = false) :
    .closedReader ∉ events := by
  induction h with
  | start => exact List.not_mem_nil
  | step _ hstep ih =>
    obtain ⟨hopen', hother⟩ := hstep.readSide hopen
    intro hmem
    rcases List.mem_append.mp hmem with hbefore | hlast
    · exact ih hopen' hbefore
    · exact hother (List.mem_singleton.mp hlast).symm

/-- The step that an event in a history belongs to. -/
theorem split (h : Run events p) (hsplit : events = before ++ event :: after) :
    ∃ q q', Run before q ∧ q.Step event q' := by
  induction h generalizing after with
  | start => simp at hsplit
  | step hrun hstep ih =>
    rcases List.eq_nil_or_concat after with rfl | ⟨after', last, rfl⟩
    · obtain ⟨rfl, hevent⟩ := List.append_inj' hsplit rfl
      obtain rfl := List.singleton_inj.mp hevent
      exact ⟨_, _, hrun, hstep⟩
    · rw [List.concat_eq_append, ← List.cons_append, ← List.append_assoc] at hsplit
      obtain ⟨hfront, -⟩ := List.append_inj' hsplit rfl
      exact ih hfront

/-- After a write was broken nothing reaches the reader any more. -/
theorem received_of_broken (h : Run events p) {failure : Failure}
    (hsplit : events = before ++ .returned (.error failure) :: after) :
    received events = received before := by
  induction h generalizing after with
  | start => simp at hsplit
  | step hrun hstep ih =>
    rcases List.eq_nil_or_concat after with rfl | ⟨after', last, rfl⟩
    · obtain ⟨rfl, hevent⟩ := List.append_inj' hsplit rfl
      obtain rfl := List.singleton_inj.mp hevent
      rw [received_concat]
      exact List.append_nil _
    · rw [List.concat_eq_append, ← List.cons_append, ← List.append_assoc] at hsplit
      obtain ⟨hfront, -⟩ := List.append_inj' hsplit rfl
      -- the broken write has taken back what was pending
      have hbroken : Broken (before ++ .returned (.error failure) :: after') :=
        ⟨failure, List.mem_append_right _ List.mem_cons_self⟩
      rw [← hfront] at hbroken
      obtain ⟨-, hpending, -⟩ := hrun.kept.broken hbroken
      rw [received_concat, hstep.received_eq_nil hpending, List.append_nil]
      exact ih hfront

end Run

/-! ## The handoff -/

/-- What a history and the pipe that it leaves behind say of the bytes that went through it. -/
structure HandsOver (events : History) (p : Pipe) : Prop where
  /-- What was read, followed by what is pending, is what was written. -/
  whole : ¬ Broken events → received events ++ p.pending = written events
  /-- Whatever happens, what was read is a front of what was written. -/
  front : received events <+: written events
  /-- A write that returns a number has the length of its data, and all of that was read. -/
  complete {before after : History} {count : Nat}
    (split : events = before ++ .returned (.ok count) :: after) :
    ∃ earlier data, Underway before earlier data ∧ count = data.length ∧
      received before = earlier ++ data
  /-- A write that is broken tells how many of its bytes were read, and no more of them ever are. -/
  torn {before after : History} {failure : Failure}
    (split : events = before ++ .returned (.error failure) :: after) :
    ∃ earlier data count, Underway before earlier data ∧
      failure = .readSideClosedAfter count data.length ∧ count ≤ data.length ∧
      received before = earlier ++ data.take count ∧ received events = received before
  /-- A read that finds the end does so behind the last byte that was written, with the write side
      closed, and not for an error, and the read side open. -/
  ended {before after : History} {bytes : Bytes}
    (split : events = before ++ .read (.count 0 bytes) :: after) :
    lastClose before = some none ∧ .closedReader ∉ before ∧ ¬ Broken before ∧
      received before = written before
  /-- When the last step has settled, a write waits just if bytes are pending and the read side is
      open. -/
  waits : p.settle.2.writing.isSome = true ↔
    p.settle.2.pending ≠ [] ∧ p.settle.2.readClosed = false

namespace Run

variable {events before after : History} {p : Pipe}

theorem received_prefix (h : Run events p) : received events <+: written events := by
  by_cases hbroken : Broken events
  · exact (h.kept.broken hbroken).1
  · rw [← h.kept.whole hbroken]
    exact List.prefix_append _ _

/-- A write returns its length when nothing of it is pending. -/
theorem complete (h : Run events p) {count : Nat}
    (hsplit : events = before ++ .returned (.ok count) :: after) :
    ∃ earlier data, Underway before earlier data ∧ count = data.length ∧
      received before = earlier ++ data := by
  obtain ⟨q, q', hrun, hstep⟩ := h.split hsplit
  cases hstep with
  | wake hsettle =>
    obtain ⟨total, hwriting, ⟨hpending, hresult, -⟩ | ⟨-, -, hresult, -⟩⟩ := settle_eq_some hsettle
    · obtain rfl := Except.ok.inj hresult
      obtain ⟨earlier, data, hunderway, rfl, -, hreceived⟩ := hrun.kept.received_eq hwriting
      rw [hpending, List.length_nil, Nat.sub_zero, List.take_length] at hreceived
      exact ⟨earlier, data, hunderway, rfl, hreceived⟩
    · exact nomatch hresult

/-- The count of a broken write is that of the bytes that are no longer pending. -/
theorem torn (h : Run events p) {failure : Failure}
    (hsplit : events = before ++ .returned (.error failure) :: after) :
    ∃ earlier data count, Underway before earlier data ∧
      failure = .readSideClosedAfter count data.length ∧ count ≤ data.length ∧
      received before = earlier ++ data.take count ∧ received events = received before := by
  obtain ⟨q, q', hrun, hstep⟩ := h.split hsplit
  cases hstep with
  | wake hsettle =>
    obtain ⟨total, hwriting, ⟨-, hresult, -⟩ | ⟨-, -, hresult, -⟩⟩ := settle_eq_some hsettle
    · exact nomatch hresult
    · obtain ⟨earlier, data, hunderway, rfl, -, hreceived⟩ := hrun.kept.received_eq hwriting
      exact ⟨earlier, data, data.length - q.pending.length, hunderway, Except.error.inj hresult,
        Nat.sub_le _ _, hreceived, h.received_of_broken hsplit⟩

/-- A read is answered with no bytes only when none are pending and none will come. -/
theorem ended (h : Run events p) {bytes : Bytes}
    (hsplit : events = before ++ .read (.count 0 bytes) :: after) :
    lastClose before = some none ∧ .closedReader ∉ before ∧ ¬ Broken before ∧
      received before = written before := by
  obtain ⟨q, q', hrun, hstep⟩ := h.split hsplit
  cases hstep with
  | read hroom hread =>
    rcases read?_eq_some hread with ⟨hpending, hreply, -⟩ |
      ⟨hpending, -, ⟨failure, hreply⟩ | ⟨-, hopen, hclosed, herror⟩⟩
    · -- some byte is pending and there is room for it
      have hcount := (Reply.count.inj hreply).1
      have hlength := List.length_pos_iff.mpr hpending
      rw [List.length_take] at hcount
      omega
    · exact nomatch hreply
    · have hlast := hrun.lastClose_eq.trans (if_pos hclosed)
      have hsound : ¬ Broken before := by
        intro hbroken
        rw [(hrun.kept.broken hbroken).2.2.1] at hopen
        exact nomatch hopen
      have hwhole := hrun.kept.whole hsound
      rw [herror] at hlast
      rw [hpending, List.append_nil] at hwhole
      exact ⟨hlast, hrun.closedReader_not_mem hopen, hsound, hwhole⟩

/-- Settling wakes the writer unless it has to wait on. -/
theorem waits (h : Run events p) : p.settle.2.writing.isSome = true ↔
    p.settle.2.pending ≠ [] ∧ p.settle.2.readClosed = false := by
  have hidle := h.kept.idle
  rw [settle]
  cases hwriting : p.writing with
  | none =>
    simp only [hwriting, hidle hwriting]
    simp
  | some total =>
    by_cases hpending : p.pending = []
    · simp [hpending]
    · by_cases hread : p.readClosed = true
      · simp [hpending, hread]
      · simp [hpending, hread, hwriting]

/-- A pipe loses nothing, repeats nothing and keeps the order, and what its writer and its reader
    are told of that is true. -/
theorem handsOver (h : Run events p) : HandsOver events p where
  whole := h.kept.whole
  front := h.received_prefix
  complete := h.complete
  torn := h.torn
  ended := h.ended
  waits := h.waits

/-- A write of three bytes of which two are read before the read side is closed. -/
theorem handsOver_torn :
    Run [.began [1, 2, 3], .read (.ofBytes [1, 2]), .closedReader,
      .returned (.error (.readSideClosedAfter 2 3))] ⟨[], none, false, none, true⟩ ∧
    HandsOver [.began [1, 2, 3], .read (.ofBytes [1, 2]), .closedReader,
      .returned (.error (.readSideClosedAfter 2 3))] ⟨[], none, false, none, true⟩ := by
  have hbegan : Run [.began [1, 2, 3]] ⟨[1, 2, 3], some 3, false, none, false⟩ :=
    .step .start (.begin rfl rfl)
  have hread : Run [.began [1, 2, 3], .read (.ofBytes [1, 2])] ⟨[3], some 3, false, none, false⟩ :=
    .step hbegan (.read Nat.two_pos rfl)
  have hclosed : Run [.began [1, 2, 3], .read (.ofBytes [1, 2]), .closedReader]
      ⟨[3], some 3, false, none, true⟩ := .step hread .closeReader
  have hrun : Run [.began [1, 2, 3], .read (.ofBytes [1, 2]), .closedReader,
      .returned (.error (.readSideClosedAfter 2 3))] ⟨[], none, false, none, true⟩ :=
    .step hclosed (.wake rfl)
  exact ⟨hrun, handsOver hrun⟩

end Run

end Pipe

end StreamScan

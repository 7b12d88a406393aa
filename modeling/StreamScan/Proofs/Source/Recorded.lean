import StreamScan.Source.Script

/-!
# Recorded sources

What a source has handed out cannot be read off its state.  A recorded source is any source
together with the bytes of all its replies so far; reads and positional reads go through to the
source inside.

A source may stand for another one that does the same and keeps less: a `SourceMap` takes the states
of the one to those of the other, and a recorded source is mapped to the source inside.

A source is *honest* if it never reports more than it wrote and never writes more than it was
offered room for, in whatever state it may come to.  It may still fail, report less than nothing,
or keep saying *not yet* for ever.  A script is honest if its bare counts are not positive.  A
source that is merely *fitting* may report bytes that it did not write, as long as there was room
for them.
-/

namespace StreamScan

/-- A map between the states of two sources that answer alike, to reads and to positional reads, and
    go to states that it maps again. -/
structure SourceMap {σ τ : Type} [ByteSource σ] [ByteSource τ] (f : σ → τ) : Prop where
  read (s : σ) (room : Nat) :
    ByteSource.read (f s) room = ((ByteSource.read s room).1, f (ByteSource.read s room).2)
  readAt? (s : σ) : ByteSource.readAt? (f s) = (ByteSource.readAt? s).map fun readAt offset size =>
    ((readAt offset size).1, f (readAt offset size).2)

/-- A source and the bytes it has handed out. -/
structure Recorded (σ : Type) where
  source : σ
  handed : Bytes

namespace Recorded

variable {σ : Type} [ByteSource σ]

/-- A source that has handed out nothing yet. -/
def ofSource (source : σ) : Recorded σ := ⟨source, []⟩

/-- The bytes that a reply hands out: as many of those that were written as it reports. -/
def handedBy : Reply → Bytes
  | .count reported written => written.take reported.toNat
  | _ => []

instance : ByteSource (Recorded σ) where
  read s room :=
    let (reply, source) := ByteSource.read s.source room
    (reply, ⟨source, s.handed ++ handedBy reply⟩)
  readAt? s := (ByteSource.readAt? s.source).map fun readAt offset size =>
    let (answer, source) := readAt offset size
    (answer, ⟨source, s.handed⟩)

theorem read_eq (s : Recorded σ) (room : Nat) :
    ByteSource.read s room = ((ByteSource.read s.source room).1,
      ⟨(ByteSource.read s.source room).2,
        s.handed ++ handedBy (ByteSource.read s.source room).1⟩) :=
  rfl

/-- Forgetting the record changes no answer. -/
theorem sourceMap_source : SourceMap (source : Recorded σ → σ) where
  read _ _ := rfl
  readAt? s := by
    show ByteSource.readAt? s.source = ((ByteSource.readAt? s.source).map _).map _
    cases ByteSource.readAt? s.source with
    | none => rfl
    | some readAt => rfl

end Recorded

/-- A reply that reports no more than was written, into the room there was. -/
def Reply.Honest (room : Nat) : Reply → Prop
  | .count reported written =>
    0 ≤ reported → (written.length : Int) = reported ∧ written.length ≤ room
  | _ => True

section
variable {σ : Type} [ByteSource σ]

/-- The states that reads and positional reads lead to. -/
inductive SourceReaches : σ → σ → Prop
  | refl (s : σ) : SourceReaches s s
  | read {s t : σ} (room : Nat) (hroom : 0 < room)
      (h : SourceReaches (ByteSource.read s room).2 t) : SourceReaches s t
  | readAt {s t : σ} {readAt : PositionalRead σ} (offset size : Int)
      (hreadAt : ByteSource.readAt? s = some readAt)
      (h : SourceReaches (readAt offset size).2 t) : SourceReaches s t

/-- A source whose replies are honest, whatever it has been asked before. -/
def HonestSource (s : σ) : Prop :=
  ∀ t, SourceReaches s t → ∀ room, 0 < room → (ByteSource.read t room).1.Honest room

variable {s : σ}

theorem HonestSource.reply (h : HonestSource s) {room : Nat} (hroom : 0 < room) :
    (ByteSource.read s room).1.Honest room :=
  h s (.refl s) room hroom

theorem HonestSource.read (h : HonestSource s) {room : Nat} (hroom : 0 < room) :
    HonestSource (ByteSource.read s room).2 :=
  fun t ht => h t (.read room hroom ht)

theorem HonestSource.readAt (h : HonestSource s) {readAt : PositionalRead σ} (offset size : Int)
    (hreadAt : ByteSource.readAt? s = some readAt) : HonestSource (readAt offset size).2 :=
  fun t ht => h t (.readAt offset size hreadAt ht)

/-- A property that every read keeps, and that makes its reply honest, makes a source honest. -/
theorem HonestSource.of_invariant {P : σ → Prop}
    (hread : ∀ s room, 0 < room → P s →
      (ByteSource.read s room).1.Honest room ∧ P (ByteSource.read s room).2)
    (hreadAt : ∀ s readAt offset size, ByteSource.readAt? s = some readAt → P s →
      P (readAt offset size).2) (hs : P s) : HonestSource s := by
  intro t ht
  induction ht with
  | refl s => exact fun room hroom => (hread s room hroom hs).1
  | read room hroom _ ih => exact ih (hread _ room hroom hs).2
  | readAt offset size hsome _ ih => exact ih (hreadAt _ _ offset size hsome hs)

/-! ## Fitting sources -/

/-- A source that never reports more bytes than it was offered room for.  It need not have written
    them. -/
def FittingSource (s : σ) : Prop :=
  ∀ t, SourceReaches s t → ∀ room, 0 < room → (ByteSource.read t room).1.size ≤ room

theorem FittingSource.size_le (h : FittingSource s) {room : Nat} (hroom : 0 < room) :
    (ByteSource.read s room).1.size ≤ room :=
  h s (.refl s) room hroom

theorem FittingSource.read (h : FittingSource s) {room : Nat} (hroom : 0 < room) :
    FittingSource (ByteSource.read s room).2 :=
  fun t ht => h t (.read room hroom ht)

theorem FittingSource.readAt (h : FittingSource s) {readAt : PositionalRead σ} (offset size : Int)
    (hreadAt : ByteSource.readAt? s = some readAt) : FittingSource (readAt offset size).2 :=
  fun t ht => h t (.readAt offset size hreadAt ht)

omit [ByteSource σ] in
theorem Reply.Honest.size_le {reply : Reply} {room : Nat} (h : reply.Honest room) :
    reply.size ≤ room := by
  cases reply with
  | count reported written =>
    have hcount : 0 ≤ reported → (written.length : Int) = reported ∧ written.length ≤ room := h
    show reported.toNat ≤ room
    omega
  | notYet => exact Nat.zero_le room
  | failed failure => exact Nat.zero_le room

theorem HonestSource.fitting (h : HonestSource s) : FittingSource s :=
  fun t ht room hroom => (h t ht room hroom).size_le

end

/-! ## Scripts -/

/-- A step that reports no more than it writes. -/
def ScriptStep.honest : ScriptStep → Bool
  | .count reported => reported ≤ 0
  | _ => true

theorem Script.honest_read {s : Script} {room : Nat} (hsteps : s.steps.all ScriptStep.honest) :
    (s.read room).1.Honest room ∧ (s.read room).2.steps.all ScriptStep.honest := by
  obtain ⟨steps, positional⟩ := s
  match steps with
  | [] => exact ⟨fun _ => ⟨rfl, Nat.zero_le _⟩, rfl⟩
  | .notYet :: rest => exact ⟨trivial, hsteps⟩
  | .raise failure :: rest => exact ⟨trivial, hsteps⟩
  | .count reported :: rest =>
    obtain ⟨hcount, hrest⟩ := (Bool.and_eq_true _ _).mp hsteps
    refine ⟨fun hpositive => ⟨?_, Nat.zero_le _⟩, hrest⟩
    have hle : reported ≤ 0 := of_decide_eq_true hcount
    rw [List.length_nil]
    omega
  | .bytes bytes :: rest =>
    rw [read]
    by_cases hcut : room < bytes.length
    · simp only [if_pos hcut]
      refine ⟨fun _ => ⟨rfl, ?_⟩, hsteps⟩
      rw [List.length_take]
      exact Nat.min_le_left _ _
    · simp only [if_neg hcut]
      exact ⟨fun _ => ⟨rfl, Nat.le_of_not_lt hcut⟩, hsteps⟩

theorem Script.honestSource {s : Script} (hsteps : s.steps.all ScriptStep.honest) :
    HonestSource s := by
  refine HonestSource.of_invariant (P := fun s : Script => s.steps.all ScriptStep.honest)
    (fun s room _ hs => honest_read hs) ?_ hsteps
  intro s readAt offset size hsome hs
  obtain ⟨answer, -, rfl⟩ := Option.map_eq_some_iff.mp hsome
  exact hs

end StreamScan

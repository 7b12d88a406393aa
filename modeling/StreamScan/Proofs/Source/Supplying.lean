import StreamScan.Proofs.Source.Delivering
import StreamScan.Source.Chunks

/-!
# Sources that hand out a stream and then end or fail

The sources of `Account` end when they have handed out everything.  A source may also fail there,
and then its cursor has a failure to report in the place of the end.  `Supply` says what both kinds
have in common: the stream comes in pieces of any size, with a *not yet* in between as long as there
are fewer than a hundred in a row, and then comes `last`, the end or a failure.  Nothing is said of
what a source answers after that.

* **`Supplies`** — what an answer may be, and the state that the source is left in.
* **`Supply`** — an account of the states of a source that every read keeps.
* **`Account.supply`**, **`Supply.account`** — a well-behaved source is one that ends.
* **`Supply.length_le_remaining`** — a source can still hand out what its account says is to come.
* **`Chunks.supplied`** — a sequence of chunks, unless a hundred in a row are empty.
-/

namespace StreamScan

variable {σ : Type}

/-- The answers of a source that still has `rest` to hand out, after as many answers *not yet* in a
    row as `idle` says.  `R` says the same of the state that it is left in; `Over` says that the
    source is over. -/
inductive Supplies (R : σ → Nat → Bytes → Prop) (Over : σ → Prop) (last : Option Failure)
    (room idle : Nat) (rest : Bytes) : Reply × σ → Prop
  | notYet {s : σ} (patient : idle + 1 < Cursor.maxEmptyReads) (after : R s (idle + 1) rest) :
    Supplies R Over last room idle rest (.notYet, s)
  | piece {s : σ} {front back : Bytes} (split : front ++ back = rest) (nonempty : front ≠ [])
    (fits : front.length ≤ room) (after : R s 0 back) :
    Supplies R Over last room idle rest (.ofBytes front, s)
  | ended {s : σ} (done : rest = []) (clean : last = none) (after : Over s) :
    Supplies R Over last room idle rest (.ofBytes [], s)
  | failed {s : σ} {failure : Failure} (done : rest = []) (cause : last = some failure)
    (after : Over s) : Supplies R Over last room idle rest (.failed failure, s)

section
variable [ByteSource σ]

/-- An account of the states of a source: in a state of which `R s idle rest` holds the bytes `rest`
    are still to come, and the last `idle` answers were *not yet*. -/
def Supply (R : σ → Nat → Bytes → Prop) (Over : σ → Prop) (last : Option Failure) : Prop :=
  ∀ ⦃s : σ⦄ ⦃idle room : Nat⦄ ⦃rest : Bytes⦄, R s idle rest → 0 < room →
    Supplies R Over last room idle rest (ByteSource.read s room)

/-- A source that hands out a stream, and then ends or fails. -/
def Supplied (last : Option Failure) (stream : Bytes) (source : σ) : Prop :=
  ∃ R, Supply R (fun _ => True) last ∧ R source 0 stream

/-- A well-behaved source ends, and it keeps its account after that. -/
theorem Account.supply {positional : Bool} {stream : Bytes} {R : σ → Nat → Bytes → Prop}
    (h : Account positional stream R) : Supply R (fun s => R s 0 []) none := by
  intro s idle room rest hs hroom
  obtain ⟨idle', rest', hreply, hafter⟩ := h.read hs hroom
  rcases hread : ByteSource.read s room with ⟨reply, s'⟩
  rw [hread] at hreply hafter
  cases hreply with
  | notYet hpatient => exact .notYet hpatient hafter
  | piece hsplit hnonempty hfits => exact .piece hsplit hnonempty hfits hafter
  | ended hdone => exact .ended hdone rfl hafter

/-- A source without positional reads that ends is well-behaved, if it keeps its account. -/
theorem Supply.account {R : σ → Nat → Bytes → Prop} (h : Supply R (fun s => R s 0 []) none)
    (hsequential : ∀ s : σ, ByteSource.readAt? s = none) {stream : Bytes} :
    Account false stream R where
  read {s idle room rest} hs hroom := by
    have hanswer := h hs hroom
    generalize ByteSource.read s room = answer at hanswer ⊢
    cases hanswer with
    | notYet hpatient hafter => exact ⟨idle + 1, rest, .notYet hpatient, hafter⟩
    | piece hsplit hnonempty hfits hafter => exact ⟨0, _, .piece hsplit hnonempty hfits, hafter⟩
    | ended hdone _ hafter => exact ⟨0, [], .ended hdone, hafter⟩
    | failed _ hcause => cases hcause
  sequential _ _ := hsequential _
  readAt _ hpositional := nomatch hpositional

end

/-- A source can still hand out what its account says is to come. -/
theorem Supply.length_le_remaining [FiniteSource σ] {R : σ → Nat → Bytes → Prop} {Over : σ → Prop}
    {last : Option Failure} (h : Supply R Over last) {s : σ} {idle : Nat} {rest : Bytes}
    (hs : R s idle rest) : rest.length ≤ FiniteSource.remaining s := by
  -- every read brings bytes, or the end, or comes nearer to the limit of patience
  induction hn : rest.length * (Cursor.maxEmptyReads + 1) + (Cursor.maxEmptyReads - idle)
    using Nat.strongRecOn generalizing s idle rest with
  | ind n ih =>
    have hanswer := h hs Nat.one_pos
    have hlaw := FiniteSource.remaining_read s 1
    generalize ByteSource.read s 1 = answer at hanswer hlaw
    cases hanswer with
    | notYet hpatient hafter =>
      have hrest := ih _ (by omega) hafter rfl
      exact Nat.le_trans hrest (Nat.le_of_add_right_le hlaw)
    | @piece s' front back hsplit hnonempty hfits hafter =>
      have hlength := congrArg List.length hsplit
      have hfront := List.length_pos_iff.mpr hnonempty
      rw [List.length_append] at hlength
      simp only [Reply.size_ofBytes] at hlaw
      have hless : back.length + 1 ≤ rest.length := by omega
      have hmul := Nat.mul_le_mul_right (Cursor.maxEmptyReads + 1) hless
      rw [Nat.add_mul, Nat.one_mul] at hmul
      have hrest := ih _ (by omega) hafter rfl
      omega
    | ended hdone =>
      rw [hdone]
      exact Nat.zero_le _
    | failed hdone =>
      rw [hdone]
      exact Nat.zero_le _

/-! ## Sequences of chunks -/

namespace Chunks

/-- What a sequence of chunks has still to hand out.  With the empty chunks that came last, the
    chunks that are left never make a hundred empty ones in a row. -/
structure Accounts (last : Option Failure) (s : Chunks) (idle : Nat) (rest : Bytes) : Prop where
  failure : s.failure = last
  rest_eq : rest = s.pending ++ s.chunks.flatten
  patient : ¬ List.replicate Cursor.maxEmptyReads [] <:+: List.replicate idle [] ++ s.chunks

/-- Handing out a part of the pending chunk. -/
theorem supplies_handOut {last : Option Failure} {s : Chunks} {idle room : Nat} {rest : Bytes}
    (hroom : 0 < room) (hpending : s.pending ≠ []) (hfailure : s.failure = last)
    (hrest : rest = s.pending ++ s.chunks.flatten)
    (hpatient : ¬ List.replicate Cursor.maxEmptyReads [] <:+: s.chunks) :
    Supplies (Accounts last) (fun _ => True) last room idle rest (s.handOut room) := by
  have hsplit : s.pending.take room ++ (s.pending.drop room ++ s.chunks.flatten) = rest := by
    rw [hrest, ← List.append_assoc, List.take_append_drop]
  refine .piece hsplit ?_ ?_ ⟨hfailure, rfl, hpatient⟩
  · intro hnil
    rcases List.take_eq_nil_iff.mp hnil with hzero | hnone
    · exact Nat.ne_of_gt hroom hzero
    · exact hpending hnone
  · rw [List.length_take]
    exact Nat.min_le_left _ _

theorem supply (last : Option Failure) :
    Supply (Accounts last) (fun _ : Chunks => True) last := by
  rintro ⟨pending, chunks, failure⟩ idle room rest ⟨hfailure, hrest, hpatient⟩ hroom
  show Supplies (Accounts last) _ last room idle rest (Chunks.read _ room)
  -- the empty chunks that came last stand in front of those that are left
  have hleft : ¬ List.replicate Cursor.maxEmptyReads [] <:+: chunks := by
    intro hmany
    exact hpatient (hmany.trans (List.suffix_append _ _).isInfix)
  cases pending with
  | cons byte pending => exact supplies_handOut hroom (List.cons_ne_nil _ _) hfailure hrest hleft
  | nil =>
    cases chunks with
    | nil =>
      cases failure with
      | none => exact .ended hrest hfailure.symm trivial
      | some failure => exact .failed hrest hfailure.symm trivial
    | cons chunk chunks =>
      cases chunk with
      | nil =>
        have hsame : List.replicate idle [] ++ [] :: chunks =
            List.replicate (idle + 1) [] ++ chunks := by
          rw [List.replicate_succ', List.append_assoc]
          rfl
        rw [hsame] at hpatient
        refine .notYet ?_ ⟨hfailure, hrest, hpatient⟩
        refine Nat.lt_of_not_le fun hmany => hpatient ?_
        obtain ⟨more, hmore⟩ := Nat.exists_eq_add_of_le hmany
        rw [hmore, ← List.replicate_append_replicate, List.append_assoc]
        exact (List.prefix_append _ _).isInfix
      | cons byte chunk =>
        refine supplies_handOut hroom (List.cons_ne_nil _ _) hfailure hrest ?_
        intro hmany
        exact hleft (hmany.trans (List.suffix_cons _ _).isInfix)

/-- A sequence of chunks hands out their bytes, and then ends or fails. -/
theorem supplied {chunks : List Bytes} (failure : Option Failure)
    (hpatient : ¬ List.replicate Cursor.maxEmptyReads [] <:+: chunks) :
    Supplied failure chunks.flatten (ofList chunks failure) :=
  ⟨_, supply failure, rfl, rfl, hpatient⟩

end Chunks

end StreamScan

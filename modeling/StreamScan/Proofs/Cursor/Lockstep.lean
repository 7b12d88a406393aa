import StreamScan.Proofs.Engine.Reading
import StreamScan.Proofs.Cursor.Tracking

/-!
# Cursors in lockstep

Two sources of different kinds may hand out the same bytes in the same pieces and come to the same
end.  Then no cursor over the one can be told from the same cursor over the other: whatever is asked
of the two, they give the same answers and have the same positions, the same window and the same
replay.  Only where they report that their source failed may the texts differ, since each source has
words of its own for that; the cause is the same.

* **`Failure.Alike`** — failures that are the same but for the text of a source failure.
* **`Mirror`** — sources that answer alike from one read to the next.
* **`Cursor.Twin`** — cursors that are the same but for their sources.
* **`Cursor.Lockstep`** — what relates cursors for all that can be asked of them.
* **`Cursor.lockstep_twin`** — twins are in lockstep, by one lemma for each operation.
-/

namespace StreamScan

/-- Failures that are the same, or failures of a source with the same cause. -/
def Failure.Alike (f g : Failure) : Prop :=
  f = g ∨ f.kind = .source ∧ g.kind = .source ∧ f.cause? = g.cause?

theorem Failure.Alike.refl (f : Failure) : f.Alike f := Or.inl rfl

variable {σ τ : Type}

/-- The answers of two sources to a read, after so many bytes: the same piece, or both come to their
    end.  `S` says which states may come then, and `O` which ones at the end. -/
inductive Together (S O : Nat → σ → τ → Prop) (total : Nat) : Reply × σ → Reply × τ → Prop
  | piece {bytes : Bytes} {s : σ} {t : τ} (nonempty : bytes ≠ [])
    (after : S (total + bytes.length) s t) :
    Together S O total (.ofBytes bytes, s) (.ofBytes bytes, t)
  | ended {s : σ} {t : τ} (after : O total s t) :
    Together S O total (.ofBytes [], s) (.ofBytes [], t)
  | failed {f g : Failure} {s : σ} {t : τ}
    (alike : (Cursor.latchedFor f).Alike (Cursor.latchedFor g)) (after : O total s t) :
    Together S O total (.failed f, s) (.failed g, t)

/-- Sources without positional reads that answer alike from one read to the next, and never keep
    their reader waiting. -/
structure Mirror [ByteSource σ] [ByteSource τ] (S O : Nat → σ → τ → Prop) : Prop where
  read {total room : Nat} {s : σ} {t : τ} (h : S total s t) (hroom : 0 < room) :
    Together S O total (ByteSource.read s room) (ByteSource.read t room)
  sequential (s : σ) : ByteSource.readAt? s = none
  sequential' (t : τ) : ByteSource.readAt? t = none

namespace Cursor

/-- The same cursor over another source, with another failure kept. -/
abbrev onto (c : Cursor σ) (t : τ) (latched : Option Failure) : Cursor τ :=
  { c with source := t, latched }

/-- What a cursor shows of itself: all but its source and the failure that it keeps. -/
def bare (c : Cursor σ) : Cursor Unit := c.onto () none

/-- Cursors that are the same but for their sources and the text of the failure that is kept. -/
inductive Twin (S O : Nat → σ → τ → Prop) (c : Cursor σ) : Cursor τ → Prop
  | onto {t : τ} {latched : Option Failure} (alike : Option.Rel Failure.Alike c.latched latched)
    (serves : c.terminated = false → S c.sourceTotal c.source t)
    (done : c.terminated = true → O c.sourceTotal c.source t) : Twin S O c (c.onto t latched)

/-- The same answers, up to the text of a source failure, and twins after them. -/
structure Agree (S O : Nat → σ → τ → Prop) {α : Type} (result : Except Failure α × Cursor σ)
    (result' : Except Failure α × Cursor τ) : Prop where
  answer : SameUpTo Failure.Alike result.1 result'.1
  twin : Twin S O result.2 result'.2

variable {S O : Nat → σ → τ → Prop} {c : Cursor σ} {c' : Cursor τ}

theorem Twin.bare_eq (h : Twin S O c c') : c.bare = c'.bare := by
  cases h with
  | onto => rfl

/-- Results that agree are both answers, and the same one, or both failures. -/
theorem Agree.split {α : Type} {result : Except Failure α × Cursor σ}
    {result' : Except Failure α × Cursor τ} (h : Agree S O result result') :
    (∃ a c c', result = (.ok a, c) ∧ result' = (.ok a, c') ∧ Twin S O c c') ∨
      ∃ f g c c', result = (.error f, c) ∧ result' = (.error g, c') ∧ f.Alike g ∧
        Twin S O c c' := by
  obtain ⟨answer, c⟩ := result
  obtain ⟨answer', c'⟩ := result'
  obtain ⟨hanswer, htwin⟩ := h
  cases hanswer with
  | ok a => exact Or.inl ⟨a, c, c', rfl, rfl, htwin⟩
  | error halike => exact Or.inr ⟨_, _, c, c', rfl, rfl, halike, htwin⟩

theorem terminated_onto {t : τ} {latched : Option Failure}
    (h : Option.Rel Failure.Alike c.latched latched) :
    (c.onto t latched).terminated = c.terminated := by
  rw [terminated, terminated]
  show (c.ended || latched.isSome) = (c.ended || c.latched.isSome)
  generalize c.latched = kept at h
  cases h with
  | none => rfl
  | some _ => rfl

/-- Nothing that leaves the source alone tells twins apart. -/
theorem Twin.moved (h : Twin S O c c') {c₁ : Cursor σ} {c₁' : Cursor τ}
    (hmoved : c₁' = c₁.onto c'.source c'.latched) (hsource : c₁.source = c.source)
    (htotal : c₁.sourceTotal = c.sourceTotal) (hended : c₁.ended = c.ended)
    (hlatched : c₁.latched = c.latched) : Twin S O c₁ c₁' := by
  cases h with
  | onto halike hserves hover =>
    subst hmoved
    have hterminated : c₁.terminated = c.terminated := by
      rw [terminated, terminated, hended, hlatched]
    refine .onto ?_ (fun hopen => ?_) (fun hclosed => ?_)
    · rw [hlatched]
      exact halike
    · rw [hsource, htotal]
      exact hserves (hterminated.symm.trans hopen)
    · rw [hsource, htotal]
      exact hover (hterminated.symm.trans hclosed)

/-! ## Reading the source -/

theorem Twin.compacted (h : Twin S O c c') : Twin S O c.compacted c'.compacted := by
  have hmoved : c'.compacted = c.compacted.onto c'.source c'.latched := by
    cases h with
    | onto =>
      rw [Cursor.compacted, Cursor.compacted]
      by_cases hzero : c.readPos = 0
      · rw [if_pos hzero, if_pos hzero]
      · rw [if_neg hzero, if_neg hzero]
  refine h.moved hmoved ?_ ?_ ?_ ?_ <;> rw [Cursor.compacted] <;> split <;> rfl

section
variable [ByteSource σ] [ByteSource τ]

/-- The first read is answered, by a piece or by the end. -/
theorem Twin.pull (hmirror : Mirror S O) (h : Twin S O c c') (hopen : c.terminated = false)
    (hroom : c.writePos < c.capacity) (attempts : Nat) :
    Agree S O (c.pull (attempts + 1)) (c'.pull (attempts + 1)) := by
  cases h with
  | onto halike hserves hover =>
    rename_i t latched
    have hanswer := hmirror.read (hserves hopen) (Nat.sub_pos_of_lt hroom)
    have hcapacity : (c.onto t latched).capacity = c.capacity := rfl
    rw [Cursor.pull, Cursor.pull, hcapacity]
    simp only
    generalize ByteSource.read c.source (c.capacity - c.writePos) = answer at hanswer ⊢
    generalize ByteSource.read t (c.capacity - c.writePos) = answer' at hanswer ⊢
    cases hanswer with
    | piece hnonempty hafter =>
      rename_i bytes s t
      have hcount := List.length_pos_iff.mpr hnonempty
      have hnegative : ¬ (bytes.length : Int) < 0 := by omega
      have hzero : ¬ (bytes.length : Int) = 0 := by omega
      simp only [Reply.ofBytes, if_neg hnegative, if_neg hzero, Int.toNat_natCast]
      refine ⟨.ok (), .onto halike (fun _ => hafter) fun hclosed => ?_⟩
      exact absurd (hopen.symm.trans hclosed) Bool.false_ne_true
    | ended hafter =>
      refine ⟨.ok (), .onto halike (fun hopen' => ?_) fun _ => hafter⟩
      exact absurd hopen'.symm Bool.false_ne_true
    | failed hfailures hafter =>
      refine ⟨.ok (), .onto (.some hfailures) (fun hopen' => ?_) fun _ => hafter⟩
      rw [terminated, Option.isSome_some, Bool.or_true] at hopen'
      exact absurd hopen'.symm Bool.false_ne_true

omit [ByteSource σ] [ByteSource τ] in
/-- Twins that are refused the same keep their places. -/
theorem Twin.refused {α : Type} (h : Twin S O c c') (failure : Failure) :
    Agree S O (α := α) (.error failure, c) (.error failure, c') :=
  ⟨.error (.refl failure), h⟩

theorem Twin.fill (hmirror : Mirror S O) (h : Twin S O c c') : Agree S O c.fill c'.fill := by
  have hcompacted := h.compacted
  rw [Cursor.fill, Cursor.fill]
  generalize c.compacted = d at hcompacted ⊢
  generalize c'.compacted = d' at hcompacted ⊢
  have htwin := hcompacted
  cases hcompacted with
  | onto halike hserves hover =>
    rename_i t latched
    simp only [terminated_onto halike]
    show Agree S O _ (if d.capacity ≤ d.writePos then _ else _)
    by_cases hfull : d.capacity ≤ d.writePos
    · rw [if_pos hfull, if_pos hfull]
      exact htwin.refused _
    · rw [if_neg hfull, if_neg hfull]
      cases hclosed : d.terminated with
      | true => exact htwin.refused _
      | false => exact htwin.pull hmirror hclosed (Nat.lt_of_not_le hfull) (maxEmptyReads - 1)

omit [ByteSource σ] [ByteSource τ] in
theorem Twin.wantsMore_eq (h : Twin S O c c') : c'.wantsMore = c.wantsMore := by
  cases h with
  | onto halike =>
    rw [wantsMore, wantsMore, terminated_onto halike]
    rfl

theorem Twin.lookahead (hmirror : Mirror S O) (h : Twin S O c c') (fills : Nat) :
    Agree S O (c.lookahead fills) (c'.lookahead fills) := by
  induction fills generalizing c c' with
  | zero => exact ⟨.ok (), h⟩
  | succ fills ih =>
    rw [Cursor.lookahead, Cursor.lookahead, h.wantsMore_eq]
    cases c.wantsMore with
    | false => exact ⟨.ok (), h⟩
    | true =>
      rcases (h.fill hmirror).split with
        ⟨_, d, d', hfill, hfill', htwin⟩ | ⟨f, g, d, d', hfill, hfill', halike, htwin⟩
      · rw [hfill, hfill']
        exact ih htwin
      · rw [hfill, hfill']
        exact ⟨.error halike, htwin⟩

/-! ## Delivering -/

omit [ByteSource σ] [ByteSource τ] in
theorem Twin.deliverFromReplay (h : Twin S O c c') (head : Bytes) :
    Agree S O (c.deliverFromReplay head) (c'.deliverFromReplay head) := by
  have htwin := h
  cases h with
  | onto =>
    rw [Cursor.deliverFromReplay, Cursor.deliverFromReplay]
    cases Utf8.decode head with
    | none => exact ⟨.ok none, htwin⟩
    | some point => exact ⟨.ok (some point), htwin.moved rfl rfl rfl rfl rfl⟩

omit [ByteSource σ] [ByteSource τ] in
/-- The end, or the failure that was kept, is reported alike. -/
theorem Twin.report {α : Type} (h : Twin S O c c') (atEnd : α) :
    SameUpTo Failure.Alike (c.report atEnd) (c'.report atEnd) := by
  cases h with
  | onto halike =>
    simp only [Cursor.report]
    generalize c.latched = kept at halike ⊢
    cases halike with
    | none => exact .ok atEnd
    | some h => exact .error h

theorem Twin.nextReplayed (hmirror : Mirror S O) (h : Twin S O c c') :
    Agree S O c.nextReplayed c'.nextReplayed := by
  have hreplay : c'.replay = c.replay := by cases h; rfl
  rw [Cursor.nextReplayed, Cursor.nextReplayed, hreplay]
  by_cases hsettled : Utf8.settled (c.replay.take Utf8.maxLength) = true
  · rw [if_pos hsettled, if_pos hsettled]
    exact h.deliverFromReplay _
  · rw [if_neg hsettled, if_neg hsettled]
    rcases (h.lookahead hmirror Utf8.maxLength).split with
      ⟨_, d, d', hlook, hlook', htwin⟩ | ⟨f, g, d, d', hlook, hlook', halike, htwin⟩
    · have hpeek : d'.peek = d.peek := by cases htwin; rfl
      rw [ensureLookahead, ensureLookahead, hlook, hlook']
      simp only [hpeek]
      exact htwin.deliverFromReplay _
    · rw [ensureLookahead, ensureLookahead, hlook, hlook']
      exact ⟨.error halike, htwin⟩

theorem Twin.nextCurrent (hmirror : Mirror S O) (h : Twin S O c c') :
    Agree S O c.nextCurrent c'.nextCurrent := by
  rw [Cursor.nextCurrent, Cursor.nextCurrent]
  rcases (h.lookahead hmirror Utf8.maxLength).split with
    ⟨_, d, d', hlook, hlook', htwin⟩ | ⟨f, g, d, d', hlook, hlook', halike, htwin⟩
  · have hpeek : d'.peek = d.peek := by cases htwin; rfl
    rw [ensureLookahead, ensureLookahead, hlook, hlook']
    simp only [hpeek]
    cases Utf8.decode d.peek with
    | none => exact ⟨htwin.report none, htwin⟩
    | some point =>
      refine ⟨.ok (some point), ?_⟩
      cases htwin with
      | onto halike hserves hover => exact .onto halike hserves hover
  · rw [ensureLookahead, ensureLookahead, hlook, hlook']
    exact ⟨.error halike, htwin⟩

theorem Twin.next (hmirror : Mirror S O) (h : Twin S O c c') : Agree S O c.next c'.next := by
  have hreplay : c'.replay = c.replay := by cases h; rfl
  rw [Cursor.next, Cursor.next, hreplay]
  cases c.replay.isEmpty with
  | true => exact h.nextCurrent hmirror
  | false => exact h.nextReplayed hmirror

theorem Twin.ensureByte (hmirror : Mirror S O) (h : Twin S O c c') :
    Agree S O c.ensureByte c'.ensureByte := by
  have htwin := h
  cases h with
  | onto halike hserves hover =>
    rw [Cursor.ensureByte, Cursor.ensureByte, terminated_onto halike]
    show Agree S O _ (if (decide (c.readPos = c.writePos) && !c.terminated) = true then _ else _)
    cases decide (c.readPos = c.writePos) && !c.terminated with
    | true => exact htwin.fill hmirror
    | false => exact ⟨.ok (), htwin⟩

theorem Twin.readBytes (hmirror : Mirror S O) (h : Twin S O c c') (room : Nat) :
    Agree S O (c.readBytes room) (c'.readBytes room) := by
  have hreplay : c'.replay = c.replay := by cases h; rfl
  rw [Cursor.readBytes, Cursor.readBytes, hreplay]
  by_cases hroom : room = 0
  · rw [if_pos hroom, if_pos hroom]
    exact ⟨.ok [], h⟩
  · rw [if_neg hroom, if_neg hroom]
    cases c.replay.isEmpty with
    | false =>
      refine ⟨.ok _, ?_⟩
      cases h with
      | onto halike hserves hover => exact .onto halike hserves hover
    | true =>
      rcases (h.ensureByte hmirror).split with
        ⟨_, d, d', hbyte, hbyte', htwin⟩ | ⟨f, g, d, d', hbyte, hbyte', halike, htwin⟩
      · rw [hbyte, hbyte']
        simp only [Bool.not_true, Bool.false_eq_true, if_false]
        have hreport := htwin.report (α := Bytes) []
        have htwin' := htwin
        cases htwin with
        | onto halike hserves hover =>
          show Agree S O _ (if d.readPos = d.writePos then _ else _)
          by_cases hdone : d.readPos = d.writePos
          · rw [if_pos hdone, if_pos hdone]
            exact ⟨hreport, htwin'⟩
          · rw [if_neg hdone, if_neg hdone]
            exact ⟨.ok _, .onto halike hserves hover⟩
      · rw [hbyte, hbyte']
        exact ⟨.error halike, htwin⟩

theorem Twin.skip (hmirror : Mirror S O) (h : Twin S O c c') : Agree S O c.skip c'.skip := by
  rw [Cursor.skip, Cursor.skip]
  rcases (h.next hmirror).split with
    ⟨_ | point, d, d', hnext, hnext', htwin⟩ | ⟨f, g, d, d', hnext, hnext', halike, htwin⟩
  · rw [hnext, hnext']
    exact ⟨.ok false, htwin⟩
  · rw [hnext, hnext']
    refine ⟨.ok true, ?_⟩
    cases htwin with
    | onto halike hserves hover => exact .onto halike hserves hover
  · rw [hnext, hnext']
    exact ⟨.error halike, htwin⟩

/-! ## Going back and copying out -/

omit [ByteSource σ] [ByteSource τ] in
theorem Twin.rewind (h : Twin S O c c') (position : Int) :
    Agree S O (c.rewind position) (c'.rewind position) := by
  have htwin := h
  cases h with
  | onto halike hserves hover =>
    rw [Cursor.rewind, Cursor.rewind]
    show Agree S O _ (if (c.delivered : Int) < position then _ else
      if (c.currentStart : Int) ≤ position then _ else if (!c.holds position) = true then _ else _)
    by_cases hforward : (c.delivered : Int) < position
    · rw [if_pos hforward, if_pos hforward]
      exact htwin.refused _
    · rw [if_neg hforward, if_neg hforward]
      by_cases hcurrent : (c.currentStart : Int) ≤ position
      · rw [if_pos hcurrent, if_pos hcurrent]
        exact ⟨.ok (), .onto halike hserves hover⟩
      · rw [if_neg hcurrent, if_neg hcurrent]
        cases c.holds position with
        | false => exact htwin.refused _
        | true => exact ⟨.ok (), .onto halike hserves hover⟩

omit [ByteSource σ] [ByteSource τ] in
theorem Twin.conclude (h : Twin S O c c') (found : Match) (stop : Nat) :
    Agree S O (c.conclude found stop) (c'.conclude found stop) := by
  rw [Cursor.conclude, Cursor.conclude]
  rcases (h.rewind stop).split with
    ⟨_, d, d', hrewind, hrewind', htwin⟩ | ⟨f, g, d, d', hrewind, hrewind', halike, htwin⟩
  · rw [hrewind, hrewind']
    refine ⟨.ok found, ?_⟩
    cases htwin with
    | onto halike hserves hover => exact .onto halike hserves hover
  · rw [hrewind, hrewind']
    exact ⟨.error halike, htwin⟩

theorem Twin.extract (hmirror : Mirror S O) (h : Twin S O c c') (start length : Int) :
    Agree S O (c.extract start length) (c'.extract start length) := by
  have htwin := h
  rw [Cursor.extract, Cursor.extract, hmirror.sequential, hmirror.sequential']
  cases h with
  | onto halike hserves hover =>
    by_cases hnegative : start < 0 ∨ length < 0
    · rw [if_pos hnegative, if_pos hnegative]
      exact htwin.refused _
    · rw [if_neg hnegative, if_neg hnegative]
      show Agree S O _ (if c.delivered < c.lastMatchEnd + start.toNat + length.toNat then _ else
        if (!c.holds (c.lastMatchEnd + start.toNat : Nat)) = true then _ else _)
      by_cases hbeyond : c.delivered < c.lastMatchEnd + start.toNat + length.toNat
      · simp only [if_pos hbeyond]
        exact htwin.refused _
      · simp only [if_neg hbeyond]
        cases c.holds (c.lastMatchEnd + start.toNat : Nat) with
        | false => exact htwin.refused _
        | true => exact htwin.conclude _ _

end

/-! ## All that can be asked -/

/-- Cursors are in lockstep when they show the same of themselves and whatever is asked of them is
    answered alike and leaves them in lockstep. -/
structure Lockstep [ByteSource σ] [ByteSource τ] (Q : Cursor σ → Cursor τ → Prop) : Prop where
  bare {c : Cursor σ} {c' : Cursor τ} (h : Q c c') : c.bare = c'.bare
  next {c : Cursor σ} {c' : Cursor τ} (h : Q c c') :
    SameUpTo Failure.Alike c.next.1 c'.next.1 ∧ Q c.next.2 c'.next.2
  readBytes {c : Cursor σ} {c' : Cursor τ} (h : Q c c') (room : Nat) :
    SameUpTo Failure.Alike (c.readBytes room).1 (c'.readBytes room).1 ∧
      Q (c.readBytes room).2 (c'.readBytes room).2
  extract {c : Cursor σ} {c' : Cursor τ} (h : Q c c') (start length : Int) :
    SameUpTo Failure.Alike (c.extract start length).1 (c'.extract start length).1 ∧
      Q (c.extract start length).2 (c'.extract start length).2
  rewind {c : Cursor σ} {c' : Cursor τ} (h : Q c c') (position : Int) :
    SameUpTo Failure.Alike (c.rewind position).1 (c'.rewind position).1 ∧
      Q (c.rewind position).2 (c'.rewind position).2
  skip {c : Cursor σ} {c' : Cursor τ} (h : Q c c') :
    SameUpTo Failure.Alike c.skip.1 c'.skip.1 ∧ Q c.skip.2 c'.skip.2

theorem lockstep_twin [ByteSource σ] [ByteSource τ] (hmirror : Mirror S O) :
    Lockstep (Twin S O) where
  bare h := h.bare_eq
  next h := ⟨(h.next hmirror).answer, (h.next hmirror).twin⟩
  readBytes h room := ⟨(h.readBytes hmirror room).answer, (h.readBytes hmirror room).twin⟩
  extract h start length :=
    ⟨(h.extract hmirror start length).answer, (h.extract hmirror start length).twin⟩
  rewind h position := ⟨(h.rewind position).answer, (h.rewind position).twin⟩
  skip h := ⟨(h.skip hmirror).answer, (h.skip hmirror).twin⟩

/-- Cursors of the same size at the start of two sources are twins. -/
theorem twin_ofSource {s : σ} {t : τ} (h : S 0 s t) (size : Int) :
    Twin S O (ofSource s size) (ofSource t size) := by
  have htwin : Twin S O (ofSource s size) ((ofSource s size).onto t none) :=
    .onto .none (fun _ => h) nofun
  exact htwin

end Cursor

end StreamScan

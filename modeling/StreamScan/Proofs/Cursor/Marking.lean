import StreamScan.Proofs.Cursor.Refusing
import StreamScan.Source.Buffer

/-!
# The end of the last match

Offsets of the decoding count from the end of the last match, and that is meant to move on and never
back.  Two operations set it.  Copying out adds to it what is not negative.  Stepping over a code
point sets it to the position instead, wherever that is; and going back leaves it alone, though it
may lead before it.  So it is taken back if both come together: whoever goes back before the end of
the last match and then steps over a code point, without having read on, has a last match that ends
earlier than the one before.

There is no other way.  This holds of every source, also of one that is not honest, since neither
the position nor the end of the last match depends on what is pulled.

* **`Marks`**, **`perform_marks`** — what a step does to the position and the end of the last match.
* **`WentBack`** — a run that has led before the end of the last match.
* **`lastMatchEnd_le_iff`** — the end of the last match moves on, but for such a step.
* **`lastMatchEnd_recedes`** — three letters, and a step that takes it back.
-/

namespace StreamScan

namespace Cursor

/-! ## One step -/

section
variable {σ : Type} [ByteSource σ] {c c' : Cursor σ} {step : CursorStep}

/-- What a step does to the position and to the end of the last match. -/
inductive Marks (c : Cursor σ) : CursorStep → Cursor σ → Prop
  /-- The position moves on or stays, and the end of the last match is left alone. -/
  | goesOn {step : CursorStep} {c' : Cursor σ} (hposition : c.delivered ≤ c'.delivered)
      (hmark : c'.lastMatchEnd = c.lastMatchEnd) : Marks c step c'
  /-- Both are the end of a match. -/
  | matched {step : CursorStep} {c' : Cursor σ} (hmark : c.lastMatchEnd ≤ c'.lastMatchEnd)
      (hposition : c'.delivered = c'.lastMatchEnd) : Marks c step c'
  /-- The code point that came next was stepped over, and both are its end. -/
  | stepped {point : Codepoint} {c' : Cursor σ} (hnext : c.next.1 = .ok (some point))
      (hposition : c'.delivered = c.delivered + point.size)
      (hmark : c'.lastMatchEnd = c'.delivered) : Marks c .skip c'
  /-- The position has gone back, and the end of the last match is left alone. -/
  | wentBack {position : Int} {c' : Cursor σ} (hrewind : c.rewind position = (.ok (), c'))
      (hposition : c'.delivered = position.toNat) (hmark : c'.lastMatchEnd = c.lastMatchEnd) :
      Marks c (.rewind position) c'

theorem SamePlace.marks (h : SamePlace c c') : Marks c step c' :=
  .goesOn (Nat.le_of_eq h.delivered.symm) h.lastMatchEnd

theorem Steps.marks {result : Except Failure (Option Codepoint) × Cursor σ} (h : Steps c result) :
    Marks c step result.2 := by
  cases h with
  | delivered hdelivered hmark =>
    refine .goesOn ?_ hmark
    rw [hdelivered]
    exact Nat.le_add_right _ _
  | nothing hsame => exact hsame.marks
  | failed hsame => exact hsame.marks

theorem samePlace_ensureByte (c : Cursor σ) : SamePlace c c.ensureByte.2 := by
  rw [Cursor.ensureByte]
  cases decide (c.readPos = c.writePos) && !c.terminated with
  | true => exact samePlace_fill c
  | false => exact SamePlace.refl c

theorem readBytes_marks (c : Cursor σ) (room : Nat) : Marks c step (c.readBytes room).2 := by
  rw [Cursor.readBytes]
  by_cases hroom : room = 0
  · rw [if_pos hroom]
    exact (SamePlace.refl c).marks
  · rw [if_neg hroom]
    cases c.replay.isEmpty with
    | false => exact .goesOn (Nat.le_add_right _ _) rfl
    | true =>
      have hsame := samePlace_ensureByte c
      simp only [Bool.not_true, Bool.false_eq_true, if_false]
      generalize c.ensureByte = answer at hsame ⊢
      obtain ⟨failure | _, c'⟩ := answer
      · exact hsame.marks
      · simp only at hsame ⊢
        by_cases hdone : c'.readPos = c'.writePos
        · rw [if_pos hdone]
          exact hsame.marks
        · rw [if_neg hdone]
          refine .goesOn ?_ hsame.lastMatchEnd
          rw [← hsame.delivered]
          exact Nat.le_add_right _ _

theorem skip_of_next {point : Codepoint} (hnext : c.next.1 = .ok (some point)) :
    c.skip.2.lastMatchEnd = c.delivered + point.size := by
  have hsteps := c.next_steps
  rw [Cursor.skip]
  generalize c.next = answer at hnext hsteps ⊢
  cases hsteps with
  | delivered hdelivered hmark =>
    obtain rfl := Option.some.inj (Except.ok.inj hnext)
    exact hdelivered
  | nothing hsame => cases hnext
  | failed hsame => cases hnext

theorem perform_marks (c : Cursor σ) (step : CursorStep) : Marks c step (c.perform step) := by
  cases step with
  | next => exact c.next_steps.marks
  | readBytes room => exact readBytes_marks c room
  | fill => exact (samePlace_fill c).marks
  | extract start length =>
    rw [perform]
    rcases c.extract_cases start length with
      ⟨found, source, readPos, replay, stop, hmark, hok⟩ | ⟨failure, source, -, herror⟩
    · rw [hok]
      exact .matched hmark rfl
    · rw [herror]
      exact .goesOn (Nat.le_refl _) rfl
  | rewind position =>
    rw [perform]
    rcases c.rewind_cases position with ⟨readPos, replay, hok⟩ | ⟨failure, herror⟩
    · rw [hok]
      exact .wentBack hok rfl rfl
    · rw [herror]
      exact (SamePlace.refl c).marks
  | skip =>
    rw [perform]
    rcases c.skip_cases with ⟨point, c', hnext, hok, hposition, hmark⟩ | ⟨-, hsame⟩
    · rw [hok]
      exact .stepped hnext hposition hmark
    · exact hsame.marks

end

/-! ## Runs -/

section
variable {σ : Type} [ByteSource σ]

/-- A run that went back before the end of the last match, which is still where it was then. -/
def WentBack (c : Cursor σ) (steps : List CursorStep) : Prop :=
  ∃ before position later, steps = before ++ .rewind position :: later ∧
    ((c.after before).rewind position).1 = .ok () ∧ position < (c.after before).lastMatchEnd ∧
    (c.after before).lastMatchEnd = (c.after steps).lastMatchEnd

/-- A cursor that a run leaves before the end of the last match was there from the start, or the run
    went back. -/
theorem wentBack_of_lt (c : Cursor σ) (steps : List CursorStep)
    (hlt : (c.after steps).delivered < (c.after steps).lastMatchEnd) :
    (c.delivered < c.lastMatchEnd ∧ c.lastMatchEnd = (c.after steps).lastMatchEnd) ∨
      c.WentBack steps := by
  induction steps generalizing c with
  | nil => exact Or.inl ⟨hlt, rfl⟩
  | cons step steps ih =>
    rcases ih (c.perform step) hlt with ⟨hbehind, hsame⟩ |
      ⟨before, position, later, rfl, hback, hlower, hkept⟩
    · -- what put the position there is the first step, or something before it
      have hmarks := c.perform_marks step
      generalize hc' : c.perform step = c' at hmarks hbehind hsame
      have hrun : c.after (step :: steps) = c'.after steps := congrArg (after · steps) hc'
      rw [hrun]
      cases hmarks with
      | goesOn hposition hmark =>
        rw [hmark] at hbehind hsame
        exact Or.inl ⟨Nat.lt_of_le_of_lt hposition hbehind, hsame⟩
      | matched hmark hposition => exact absurd hbehind (by omega)
      | stepped hnext hposition hmark => exact absurd hbehind (by omega)
      | @wentBack position c' hrewind hposition hmark =>
        rw [hmark] at hsame
        refine Or.inr ⟨[], position, steps, rfl, congrArg Prod.fst hrewind, ?_, ?_⟩
        · show position < c.lastMatchEnd
          omega
        · rw [hrun]
          exact hsame
    · exact Or.inr ⟨step :: before, position, later, rfl, hback, hlower, hkept⟩

/-- A run after which a step over a code point takes the end of the last match back. -/
structure Recedes (c : Cursor σ) (steps : List CursorStep) : Prop where
  /-- The code point that comes next ends before the last match. -/
  behind : ∃ point, (c.after steps).next.1 = .ok (some point) ∧
    (c.after steps).delivered + point.size < (c.after steps).lastMatchEnd
  wentBack : c.WentBack steps

/-- The end of the last match moves on or stays, and that is so unless it is a code point before it
    that is stepped over, which needs a run that has gone back.  Nothing is asked of the source. -/
theorem lastMatchEnd_le_iff (source : σ) (size : Int) (steps : List CursorStep)
    (step : CursorStep) :
    ((ofSource source size).after steps).lastMatchEnd ≤
        ((ofSource source size).after (steps ++ [step])).lastMatchEnd ↔
      ¬ (step = .skip ∧ (ofSource source size).Recedes steps) := by
  have hrun : (ofSource source size).after (steps ++ [step]) =
      ((ofSource source size).after steps).perform step := after_append _ steps [step]
  rw [hrun]
  constructor
  · rintro hle ⟨rfl, ⟨point, hnext, hbehind⟩, -⟩
    rw [perform, skip_of_next hnext] at hle
    exact absurd hbehind (Nat.not_lt.mpr hle)
  · intro hnot
    have hmarks := ((ofSource source size).after steps).perform_marks step
    generalize ((ofSource source size).after steps).perform step = c' at hmarks ⊢
    cases hmarks with
    | goesOn hposition hmark => exact Nat.le_of_eq hmark.symm
    | matched hmark hposition => exact hmark
    | wentBack hrewind hposition hmark => exact Nat.le_of_eq hmark.symm
    | @stepped point c' hnext hposition hmark =>
      rw [hmark, hposition]
      refine Nat.not_lt.mp fun hbehind => hnot ⟨rfl, ⟨point, hnext, hbehind⟩, ?_⟩
      -- a cursor begins at the end of the last match, both being zero
      rcases wentBack_of_lt (ofSource source size) steps
        (Nat.lt_of_le_of_lt (Nat.le_add_right _ _) hbehind) with ⟨hstart, -⟩ | hback
      · exact absurd hstart (Nat.lt_irrefl 0)
      · exact hback

end

/-- Three letters, of which the first two are matched.  Whoever goes back and steps over the first
    has a last match that ends behind it, and no longer behind the second. -/
theorem lastMatchEnd_recedes :
    let c := ofSource (Buffer.ofPayload [0x61, 0x62, 0x63] none false) 16
    (c.after [.next, .next, .extract 0 2, .rewind 0]).lastMatchEnd = 2 ∧
      (c.after [.next, .next, .extract 0 2, .rewind 0, .skip]).lastMatchEnd = 1 := by
  decide +kernel

end Cursor

end StreamScan

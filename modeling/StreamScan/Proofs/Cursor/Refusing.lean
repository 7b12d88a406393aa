import Mathlib.Control.Monad.Basic
import StreamScan.Proofs.Cursor.Extraction

/-!
# What fails changes nothing

Going back and copying out can fail in seven ways: a location is negative, or it ends beyond what
was delivered; a positional read fails, or it is short; a match begins before the window; a position
lies ahead, or too far back, and that may turn out only when the bytes of a match have been read.
In each of them the cursor is as it was, to the last byte of its window.  Only a source with
positional reads may have changed, since it was asked.

Stepping over a code point is different, for it may refill before it fails.  A refill compacts the
window and may bring bytes, so the cursor is not as it was.  But it stands where it stood, and what
came next still comes next.  The bytes that the refills have brought come behind it, and there are
such bytes only if the source has then reported less than nothing: in any other case whoever cannot
step has got everything.

Nothing is asked of the source for this, but that it is honest where its bytes are spoken of.

* **`rewind_cases`**, **`extract_cases`** — what going back and copying out can come to.
* **`Steps`**, **`next_steps`** — what a call for a code point can come to.
* **`refuses`** — what fails after a run, and what it leaves alone.
-/

namespace StreamScan

namespace Cursor

/-! ## Going back and copying out -/

section
variable {σ : Type}

/-- Going back leads to the position, or it is refused and the cursor is as it was. -/
theorem rewind_cases (c : Cursor σ) (position : Int) :
    (∃ readPos replay, c.rewind position =
        (.ok (), { c with replay, readPos, delivered := position.toNat })) ∨
      ∃ failure, c.rewind position = (.error failure, c) := by
  rw [Cursor.rewind]
  by_cases hforward : (c.delivered : Int) < position
  · rw [if_pos hforward]
    exact Or.inr ⟨_, rfl⟩
  · rw [if_neg hforward]
    by_cases hcurrent : (c.currentStart : Int) ≤ position
    · rw [if_pos hcurrent]
      exact Or.inl ⟨_, _, rfl⟩
    · rw [if_neg hcurrent]
      cases c.holds position with
      | true => exact Or.inl ⟨_, _, rfl⟩
      | false => exact Or.inr ⟨_, rfl⟩

/-- The same of going on right after a match. -/
theorem conclude_cases (c : Cursor σ) (found : Match) (stop : Nat) :
    (∃ readPos replay, c.conclude found stop =
        (.ok found, { c with replay, readPos, delivered := stop, lastMatchEnd := stop })) ∨
      ∃ failure, c.conclude found stop = (.error failure, c) := by
  rw [Cursor.conclude]
  rcases c.rewind_cases stop with ⟨readPos, replay, hrewind⟩ | ⟨failure, hrewind⟩
  · rw [hrewind]
    exact Or.inl ⟨readPos, replay, rfl⟩
  · rw [hrewind]
    exact Or.inr ⟨failure, rfl⟩

variable [ByteSource σ]

/-- A source that was asked for a stretch of its bytes, or not even that. -/
def AskedFor (c : Cursor σ) (start length : Int) (source : σ) : Prop :=
  source = c.source ∨ ∃ readAt, ByteSource.readAt? c.source = some readAt ∧
    source = (readAt (c.lastMatchEnd + start.toNat : Nat) length).2

/-- Copying out leads to the end of the match, which is not before that of the last one, or it fails
    and the cursor is as it was, but for a positional read of its source. -/
theorem extract_cases (c : Cursor σ) (start length : Int) :
    (∃ found source readPos replay stop, c.lastMatchEnd ≤ stop ∧ c.extract start length =
        (.ok found, { c with source, replay, readPos, delivered := stop, lastMatchEnd := stop })) ∨
      ∃ failure source, c.AskedFor start length source ∧
        c.extract start length = (.error failure, { c with source }) := by
  have hunread : c.AskedFor start length c.source := Or.inl rfl
  have hmark : c.lastMatchEnd ≤ c.lastMatchEnd + start.toNat + length.toNat := by omega
  rw [Cursor.extract]
  by_cases hnegative : start < 0 ∨ length < 0
  · rw [if_pos hnegative]
    exact Or.inr ⟨_, _, hunread, rfl⟩
  · rw [if_neg hnegative]
    simp only
    by_cases hbeyond : c.delivered < c.lastMatchEnd + start.toNat + length.toNat
    · rw [if_pos hbeyond]
      exact Or.inr ⟨_, _, hunread, rfl⟩
    · rw [if_neg hbeyond]
      cases hreadAt : ByteSource.readAt? c.source with
      | none =>
        cases c.holds (c.lastMatchEnd + start.toNat : Nat) with
        | false => exact Or.inr ⟨_, _, hunread, rfl⟩
        | true =>
          rcases c.conclude_cases ⟨c.lastMatchEnd + start.toNat, c.window.slice
            (c.lastMatchEnd + start.toNat : Nat) length c.sourceTotal c.writePos⟩
            (c.lastMatchEnd + start.toNat + length.toNat) with
            ⟨readPos, replay, hconclude⟩ | ⟨failure, hconclude⟩
          · exact Or.inl ⟨_, c.source, readPos, replay, _, hmark, hconclude⟩
          · exact Or.inr ⟨failure, c.source, hunread, hconclude⟩
      | some readAt =>
        have hread : c.AskedFor start length
            (readAt (c.lastMatchEnd + start.toNat : Nat) length).2 := Or.inr ⟨readAt, hreadAt, rfl⟩
        simp only
        generalize readAt (c.lastMatchEnd + start.toNat : Nat) length = answer at hread ⊢
        obtain ⟨failure | data, source⟩ := answer
        · exact Or.inr ⟨_, source, hread, rfl⟩
        · simp only
          by_cases hshort : data.length ≠ length.toNat
          · rw [if_pos hshort]
            exact Or.inr ⟨_, source, hread, rfl⟩
          · rw [if_neg hshort]
            -- the bytes have been read, and still the rewind may be refused
            rcases conclude_cases { c with source } ⟨c.lastMatchEnd + start.toNat, data⟩
              (c.lastMatchEnd + start.toNat + length.toNat) with
              ⟨readPos, replay, hconclude⟩ | ⟨failure, hconclude⟩
            · exact Or.inl ⟨_, source, readPos, replay, _, hmark, hconclude⟩
            · exact Or.inr ⟨failure, source, hread, hconclude⟩

end

/-! ## Calls for a code point -/

section
variable {σ : Type} {c c₁ : Cursor σ} {result : Except Failure (Option Codepoint) × Cursor σ}

/-- What a call for a code point can come to: one is delivered and its bytes are passed, or none is
    and the cursor stands where it stood. -/
inductive Steps (c : Cursor σ) : Except Failure (Option Codepoint) × Cursor σ → Prop
  | delivered {point : Codepoint} {c' : Cursor σ}
      (hdelivered : c'.delivered = c.delivered + point.size)
      (hmark : c'.lastMatchEnd = c.lastMatchEnd) : Steps c (.ok (some point), c')
  | nothing {c' : Cursor σ} (h : SamePlace c c') : Steps c (.ok none, c')
  | failed {failure : Failure} {c' : Cursor σ} (h : SamePlace c c') : Steps c (.error failure, c')

theorem Steps.trans (h : SamePlace c c₁) (hsteps : Steps c₁ result) : Steps c result := by
  cases hsteps with
  | delivered hdelivered hmark =>
    rw [h.delivered] at hdelivered
    exact .delivered hdelivered (hmark.trans h.lastMatchEnd)
  | nothing hsame => exact .nothing (h.trans hsame)
  | failed hsame => exact .failed (h.trans hsame)

theorem deliverFromReplay_steps (c : Cursor σ) (head : Bytes) :
    Steps c (c.deliverFromReplay head) := by
  rw [Cursor.deliverFromReplay]
  cases Utf8.decode head with
  | none => exact .nothing (SamePlace.refl c)
  | some point => exact .delivered rfl rfl

theorem report_steps (c : Cursor σ) : Steps c (c.report none, c) := by
  rw [report]
  cases c.latched with
  | none => exact .nothing (SamePlace.refl c)
  | some failure => exact .failed (SamePlace.refl c)

variable [ByteSource σ]

theorem nextReplayed_steps (c : Cursor σ) : Steps c c.nextReplayed := by
  rw [Cursor.nextReplayed, ensureLookahead]
  by_cases hsettled : Utf8.settled (c.replay.take Utf8.maxLength) = true
  · rw [if_pos hsettled]
    exact deliverFromReplay_steps c _
  · rw [if_neg hsettled]
    have hsame := samePlace_lookahead Utf8.maxLength c
    generalize c.lookahead Utf8.maxLength = ahead at hsame ⊢
    obtain ⟨failure | _, c₁⟩ := ahead
    · exact .failed hsame
    · exact Steps.trans hsame (deliverFromReplay_steps c₁ _)

theorem nextCurrent_steps (c : Cursor σ) : Steps c c.nextCurrent := by
  have hsame := samePlace_lookahead Utf8.maxLength c
  rw [Cursor.nextCurrent, ensureLookahead]
  generalize c.lookahead Utf8.maxLength = ahead at hsame ⊢
  obtain ⟨failure | _, c₁⟩ := ahead
  · exact .failed hsame
  · simp only at hsame ⊢
    cases Utf8.decode c₁.peek with
    | none => exact Steps.trans hsame (report_steps c₁)
    | some point => exact Steps.trans hsame (.delivered rfl rfl)

/-- A call for a code point moves the cursor only if it delivers one. -/
theorem next_steps (c : Cursor σ) : Steps c c.next := by
  rw [Cursor.next]
  cases c.replay.isEmpty with
  | true => exact nextCurrent_steps c
  | false => exact nextReplayed_steps c

/-- Stepping over a code point makes its end the end of the last match, or it fails, or there is
    nothing to step over, and then the cursor stands where it stood. -/
theorem skip_cases (c : Cursor σ) :
    (∃ point c', c.next.1 = .ok (some point) ∧ c.skip = (.ok true, c') ∧
        c'.delivered = c.delivered + point.size ∧ c'.lastMatchEnd = c'.delivered) ∨
      c.skip.1 ≠ .ok true ∧ SamePlace c c.skip.2 := by
  have hsteps := c.next_steps
  rw [Cursor.skip]
  rcases hcase : c.next with ⟨failure | _ | point, c'⟩
  · rw [hcase] at hsteps
    cases hsteps with
    | failed hsame => exact Or.inr ⟨by simp, hsame⟩
  · rw [hcase] at hsteps
    cases hsteps with
    | nothing hsame => exact Or.inr ⟨by simp, hsame⟩
  · rw [hcase] at hsteps
    cases hsteps with
    | delivered hdelivered hmark => exact Or.inl ⟨point, _, rfl, rfl, hdelivered, rfl⟩

end

/-! ## The bytes that are left -/

section
variable {σ : Type} [ByteSource σ]

/-- Who cannot step over a code point has got everything, or the source reports less than
    nothing. -/
theorem Sound.skip_cases {capacity : Nat} {c : Cursor (Recorded σ)} (h : Sound capacity c)
    (hroomy : Utf8.maxLength ≤ c.capacity) (hskip : c.skip.1 ≠ .ok true) :
    c.skip.2.delivered = c.skip.2.source.handed.length ∨
      ∃ k < 0, c.skip.1 = .error (.negativeCount k) := by
  have hcases := h.next_cases hroomy
  rw [Cursor.skip] at hskip ⊢
  generalize c.next = answer at hcases hskip ⊢
  obtain ⟨failure | _ | point, c'⟩ := answer
  · rcases hcases with ⟨point, hpoint⟩ | ⟨k, hk, hnegative⟩ | ⟨-, hall, -⟩
    · cases hpoint
    · obtain rfl := Except.error.inj hnegative
      exact Or.inr ⟨k, hk, rfl⟩
    · exact Or.inl hall
  · rcases hcases with ⟨point, hpoint⟩ | ⟨k, hk, hnegative⟩ | ⟨-, hall, -⟩
    · cases hpoint
    · cases hnegative
    · exact Or.inl hall
  · exact absurd rfl hskip

theorem skip_recorded (source : σ) (size : Int) (steps : List CursorStep) :
    (recorded source size steps).skip.1 = ((ofSource source size).after steps).skip.1 := by
  rw [← forget_recorded]
  exact congrArg Prod.fst (map_skip Recorded.sourceMap_source (recorded source size steps))

/-- What was handed out in a step that could not be made comes behind the bytes that were left. -/
theorem left_skip {source : σ} (hsource : HonestSource source) {size : Int}
    {steps : List CursorStep} (hskip : ((ofSource source size).after steps).skip.1 ≠ .ok true)
    {more : Bytes}
    (hmore : handedOut source size (steps ++ [.skip]) = handedOut source size steps ++ more) :
    left source size (steps ++ [.skip]) = left source size steps ++ more := by
  have hdelivered := (tracks_after hsource size steps).2.delivered_le
  have hrun : (ofSource source size).after (steps ++ [.skip]) =
      ((ofSource source size).after steps).skip.2 := after_append _ steps [.skip]
  rcases ((ofSource source size).after steps).skip_cases with
      ⟨point, c', -, hok, -⟩ | ⟨-, hsame⟩
  · rw [hok] at hskip
    exact absurd rfl hskip
  · rw [left, left, hmore, hrun, hsame.delivered, List.drop_append_of_le_length hdelivered]

end

/-! ## After a run -/

section
variable {σ : Type} [ByteSource σ]

/-- The bytes that come next, before and after a step that could not be made and in which these were
    handed out. -/
structure StillNext (source : σ) (size : Int) (steps : List CursorStep) (c : Cursor σ)
    (more : Bytes) : Prop where
  handed : handedOut source size (steps ++ [.skip]) = handedOut source size steps ++ more
  before : c.Brings (left source size steps)
  after : c.skip.2.Brings (left source size steps ++ more)
  /-- After it something new comes only if the source has reported less than nothing. -/
  silent : more = [] ∨ ∃ k < 0, c.skip.1 = .error (.negativeCount k)

/-- What fails after a run, and what it leaves alone. -/
structure Refuses (source : σ) (size : Int) (steps : List CursorStep) (c : Cursor σ) : Prop where
  rewind {position : Int} {failure : Failure} {c' : Cursor σ}
    (h : c.rewind position = (.error failure, c')) : c' = c
  extract {start length : Int} {failure : Failure} {c' : Cursor σ}
    (h : c.extract start length = (.error failure, c')) :
    c' = { c with source := c'.source } ∧ c.AskedFor start length c'.source
  /-- A step that fails, or that finds nothing to step over, leads nowhere. -/
  skip (h : c.skip.1 ≠ .ok true) :
    c.skip.2.delivered = c.delivered ∧ c.skip.2.lastMatchEnd = c.lastMatchEnd
  /-- Nor does it change what comes next. -/
  stillNext (hsource : HonestSource source) (h : c.skip.1 ≠ .ok true) :
    ∃ more, StillNext source size steps c more

/-- The bytes that come next are the same after a step that could not be made. -/
theorem stillNext_after {source : σ} (hsource : HonestSource source) (size : Int)
    (steps : List CursorStep) (hskip : ((ofSource source size).after steps).skip.1 ≠ .ok true) :
    ∃ more, StillNext source size steps ((ofSource source size).after steps) more := by
  obtain ⟨more, hmore⟩ := handedOut_prefix source size steps [.skip]
  have hleft := left_skip hsource hskip hmore.symm
  have hrun : (ofSource source size).after (steps ++ [.skip]) =
      ((ofSource source size).after steps).skip.2 := after_append _ steps [.skip]
  refine ⟨more, hmore.symm, (tracks_after hsource size steps).brings, ?_, ?_⟩
  · have hbrings := (tracks_after hsource size (steps ++ [.skip])).brings
    rw [← left, hleft, hrun] at hbrings
    exact hbrings
  · rw [← skip_recorded] at hskip ⊢
    refine ((sound_recorded hsource size steps).skip_cases (roomy_recorded hsource size steps)
      hskip).imp_left fun hall => ?_
    -- everything is delivered, so nothing can have been handed out
    rw [left_concat, perform, hall, List.drop_length] at hleft
    exact (List.append_eq_nil_iff.mp hleft.symm).2

/-- What fails leaves the cursor as it was, for every source and every run. -/
theorem refuses (source : σ) (size : Int) (steps : List CursorStep) :
    Refuses source size steps ((ofSource source size).after steps) where
  rewind {position failure c'} h := by
    rcases ((ofSource source size).after steps).rewind_cases position with
      ⟨readPos, replay, hok⟩ | ⟨failure', herror⟩
    · rw [hok] at h
      exact nomatch (Prod.ext_iff.mp h).1
    · rw [herror] at h
      exact (Prod.ext_iff.mp h).2.symm
  extract {start length failure c'} h := by
    rcases ((ofSource source size).after steps).extract_cases start length with
      ⟨found, source', readPos, replay, stop, -, hok⟩ | ⟨failure', source', hasked, herror⟩
    · rw [hok] at h
      exact nomatch (Prod.ext_iff.mp h).1
    · rw [herror] at h
      obtain rfl := (Prod.ext_iff.mp h).2
      exact ⟨rfl, hasked⟩
  skip h := by
    rcases ((ofSource source size).after steps).skip_cases with
      ⟨point, c', -, hok, -⟩ | ⟨-, hsame⟩
    · rw [hok] at h
      exact absurd rfl h
    · exact ⟨hsame.delivered, hsame.lastMatchEnd⟩
  stillNext hsource h := stillNext_after hsource size steps h

end

/-- A source that reports less than nothing in the middle of a sequence, and whose positional reads
    raise what is no failure of the operating system. -/
def negativeInSequence : Script where
  steps := [.bytes [0x41, 0xE2], .bytes [0x82], .count (-3)]
  positional := some (.error (.raised .invalidValue "no such range"))

/-- The cursor behind the first letter. -/
def behindLetter : Cursor Script := (ofSource negativeInSequence 16).after [.next]

/-- A positional read raises, and a step is refused after a refill that brought a byte: nothing but
    that byte is new. -/
theorem refuses_negative :
    HonestSource negativeInSequence ∧
      (behindLetter.extract 0 1).1 = .error (.raised .invalidValue "no such range") ∧
      (behindLetter.extract 0 1).2 =
        { behindLetter with source := (behindLetter.extract 0 1).2.source } ∧
      behindLetter.skip.1 = .error (.negativeCount (-3)) ∧
      behindLetter.skip.2.delivered = 1 ∧
      left negativeInSequence 16 [.next] = [0xE2] ∧
      handedOut negativeInSequence 16 [.next, .skip] = [0x41, 0xE2, 0x82] ∧
      ∃ more, StillNext negativeInSequence 16 [.next] behindLetter more := by
  have honest : HonestSource negativeInSequence := Script.honestSource (by decide)
  have hraised : (behindLetter.extract 0 1).1 = .error (.raised .invalidValue "no such range") := by
    decide +kernel
  have hnegative : behindLetter.skip.1 = .error (.negativeCount (-3)) := by decide +kernel
  have hskip : behindLetter.skip.1 ≠ .ok true := by
    rw [hnegative]
    exact nofun
  have hextract : behindLetter.extract 0 1 =
      (.error (.raised .invalidValue "no such range"), (behindLetter.extract 0 1).2) := by
    rw [← hraised]
  have hread : behindLetter.delivered = 1 := by decide +kernel
  have hrefuses := refuses negativeInSequence 16 [.next]
  exact ⟨honest, hraised, (hrefuses.extract hextract).1, hnegative,
    (hrefuses.skip hskip).1.trans hread, by decide +kernel, by decide +kernel,
    hrefuses.stillNext honest hskip⟩

end Cursor

end StreamScan

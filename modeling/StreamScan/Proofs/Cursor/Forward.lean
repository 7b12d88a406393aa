import StreamScan.Proofs.Cursor.Standing

/-!
# Decoding forward

A cursor that only ever goes forward has nothing to replay, so it is never torn.  However its source
cuts the stream, inside a sequence or between two, with *not yet* in between, and however small the
window is: the code points that it delivers are those of the stream decoded in one piece, one after
the other.  When all of them are delivered, and not before, each further call reports the end, or
the failure that the source came to an end with.

* **`nexts`** — the answers of calls made one after another.
* **`nexts_ofSource`** — they are the code points of the stream, and then its end.
-/

namespace StreamScan

namespace Cursor

variable {σ : Type} [ByteSource σ] {R : σ → Nat → Bytes → Prop} {Over : σ → Prop}
  {last : Option Failure} {stream : Bytes} {c : Cursor σ}

/-- The answers to so many calls one after another, and the cursor that they leave behind. -/
def nexts : Nat → Cursor σ → List (Except Failure (Option Codepoint)) × Cursor σ
  | 0, c => ([], c)
  | calls + 1, c => (c.next.1 :: (nexts calls c.next.2).1, (nexts calls c.next.2).2)

/-- A cursor with nothing to replay delivers the code points of the stream from its position on. -/
theorem Stands.nexts (hsupply : Supply R Over last) (h : c.Stands R Over last stream)
    (hreplay : c.replay = []) (calls : Nat) :
    (nexts calls c).1 = (List.range calls).map (fun call =>
        answered last (Utf8.codepoints (stream.drop c.delivered))[call]?) ∧
      (nexts calls c).2.delivered =
        c.delivered + width ((Utf8.codepoints (stream.drop c.delivered)).take calls) := by
  induction calls generalizing c with
  | zero => exact ⟨rfl, rfl⟩
  | succ calls ih =>
    obtain ⟨c', hnext, hstepped, hreplay'⟩ := h.nextCurrent hsupply hreplay
    have hfirst : c.next = c.nextCurrent := by
      rw [Cursor.next, if_pos (List.isEmpty_iff.mpr hreplay)]
    obtain ⟨hanswers, hdelivered⟩ := ih hstepped.stands hreplay'
    have htail : Utf8.codepoints (stream.drop c'.delivered) =
        (Utf8.codepoints (stream.drop c.delivered)).tail := by
      rw [hstepped.delivered, ← List.drop_drop, Utf8.codepoints_drop_first]
    rw [htail] at hanswers hdelivered
    simp only [Cursor.nexts, hfirst, hnext]
    constructor
    · rw [hanswers, List.range_succ_eq_map, List.map_cons, List.map_map, ← Utf8.decode_eq_getElem?]
      congr 1
      refine List.map_congr_left fun call _ => ?_
      rw [List.getElem?_tail]
      rfl
    · rw [hdelivered, hstepped.delivered, Utf8.width_take_codepoints_succ, Nat.add_assoc]

/-- However the stream is cut, a fresh cursor delivers the code points of the stream, which cover
    it, and then it reports how the stream ends. -/
theorem nexts_ofSource {source : σ} (hsource : Supplied last stream source) (size : Int)
    (calls : Nat) :
    (nexts calls (ofSource source size)).1 = (List.range calls).map (fun call =>
        answered last (Utf8.codepoints stream)[call]?) ∧
      (nexts calls (ofSource source size)).2.delivered =
        width ((Utf8.codepoints stream).take calls) ∧
      width (Utf8.codepoints stream) = stream.length := by
  obtain ⟨R, hsupply, hstart⟩ := hsource
  obtain ⟨hanswers, hdelivered⟩ := (stands_ofSource hstart size).nexts hsupply rfl calls
  refine ⟨hanswers, ?_, Utf8.width_codepoints stream⟩
  rw [hdelivered]
  exact Nat.zero_add _

/-- A sign of three bytes in three pieces with two empty ones in between, then a lead byte without
    anything that follows it, a letter, and a failure. -/
def scattered : List Bytes := [[0xE2], [], [0x82], [], [0xAC, 0xF0, 0x9F], [0x41]]

theorem nexts_scattered :
    (¬ List.replicate maxEmptyReads [] <:+: scattered) ∧
      (nexts 6 (ofSource (Chunks.ofList scattered (some .streamClosed)) 16)).1 =
        (List.range 6).map (fun call =>
          answered (some .streamClosed) (Utf8.codepoints scattered.flatten)[call]?) ∧
      (Utf8.codepoints scattered.flatten).map (·.size) = [3, 1, 1, 1] := by
  have patient : ¬ List.replicate maxEmptyReads [] <:+: scattered := by
    intro hmany
    have hlength := hmany.length_le
    rw [List.length_replicate] at hlength
    exact absurd hlength (by decide)
  exact ⟨patient, (nexts_ofSource (Chunks.supplied _ patient) 16 6).1, by decide +kernel⟩

end Cursor

end StreamScan

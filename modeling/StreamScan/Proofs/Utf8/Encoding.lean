import StreamScan.Proofs.Utf8.Decoding
import StreamScan.Utf8.Text

/-!
# Encoded text

The bytes that encode a character are one byte below 0x80, or else a whole sequence: a lead byte and
as many bytes after it as that announces.  `encode_char` gives the two cases and the number that the
sequence spells; how the bytes are laid out is looked at there and nowhere else.

* **`IsSequence`** — a lead byte and the bytes of its sequence.
* **`decode_encode`** — encoded text decodes to its first character.
* **`codepoints_encode`**, **`text_encode`** — text that was encoded is what a scan reads, and what
  a match shows.
-/

namespace StreamScan.Utf8

/-- The bytes of a text. -/
def encode (text : List Char) : Bytes := text.flatMap String.utf8EncodeChar

@[simp] theorem encode_cons (c : Char) (text : List Char) :
    encode (c :: text) = String.utf8EncodeChar c ++ encode text := rfl

theorem encode_append (front back : List Char) :
    encode (front ++ back) = encode front ++ encode back :=
  List.flatMap_append

/-! ## Whole sequences -/

/-- A lead byte with the bytes of its sequence, of which there is one at least. -/
structure IsSequence (lead : UInt8) (tail : Bytes) : Prop where
  length_eq : tail.length + 1 = sequenceLength lead.toNat
  nonempty : tail ≠ []
  follows : continues lead tail = true

section
variable {lead : UInt8} {tail : Bytes}

theorem IsSequence.decode_eq (h : IsSequence lead tail) (rest : Bytes) :
    decode (lead :: tail ++ rest) =
      some ⟨Char.ofNat (scalar lead tail), tail.length + 1⟩ := by
  have hlength := h.length_eq
  have hpositive := List.length_pos_iff.mpr h.nonempty
  have hlead : ¬ lead < 0x80 := by
    intro hascii
    have hsmall : (lead.toNat : Int) < 0xC2 := by
      have hlt : lead.toNat < 0x80 := hascii
      omega
    rw [sequenceLength, if_pos (Or.inl hsmall)] at hlength
    omega
  have htail : (tail ++ rest).take (sequenceLength lead.toNat - 1) = tail := by
    rw [← hlength, Nat.add_sub_cancel, List.take_left']
    rfl
  have hwhole : ¬ (sequenceLength lead.toNat = 1 ∨
      tail.length < sequenceLength lead.toNat - 1 ∨ continues lead tail = false) := by
    rw [← hlength, h.follows]
    simp only [Nat.add_sub_cancel, Nat.lt_irrefl, Bool.true_eq_false, or_false]
    omega
  rw [List.cons_append, decode]
  simp only [htail]
  rw [if_neg hlead, if_neg hwhole, ← hlength]

/-- Bytes that go on a sequence all belong to it. -/
theorem continuing_append {more : Nat} {bytes : Bytes} (hlength : bytes.length = more)
    (hall : bytes.all isContinuation = true) (rest : Bytes) :
    continuing more (bytes ++ rest) = more := by
  induction bytes generalizing more with
  | nil =>
    rw [← hlength]
    rfl
  | cons b bytes ih =>
    rw [List.all_cons, Bool.and_eq_true] at hall
    rw [← hlength, List.length_cons, List.cons_append, continuing, if_pos hall.1, ih rfl hall.2]

theorem IsSequence.subpart_eq (h : IsSequence lead tail) (rest : Bytes) :
    subpart (lead :: tail ++ rest) = tail.length + 1 := by
  have hlength := h.length_eq
  have hfollows := h.follows
  cases tail with
  | nil => exact absurd rfl h.nonempty
  | cons second others =>
    rw [List.length_cons] at hlength
    rw [continues, Bool.and_eq_true] at hfollows
    rw [List.cons_append, List.cons_append, subpart]
    simp only [← hlength]
    rw [if_neg (by omega), if_pos hfollows.1, continuing_append (by omega) hfollows.2,
      List.length_cons]
    omega

end

/-! ## The bytes of a character -/

/-- Which bytes may stand second, by their numbers. -/
theorem followsLead_of_toNat {lead b : UInt8} (hfrom : 0x80 ≤ b.toNat) (hto : b.toNat ≤ 0xBF)
    (hE0 : lead.toNat = 0xE0 → 0xA0 ≤ b.toNat) (hED : lead.toNat = 0xED → b.toNat ≤ 0x9F)
    (hF0 : lead.toNat = 0xF0 → 0x90 ≤ b.toNat) (hF4 : lead.toNat = 0xF4 → b.toNat ≤ 0x8F) :
    followsLead lead b = true := by
  simp only [followsLead, isContinuation, ← UInt8.toNat_inj, UInt8.le_iff_toNat_le]
  simp only [UInt8.reduceToNat]
  split
  · rename_i heq
    have hbound := hE0 heq
    simp only [Bool.and_eq_true, decide_eq_true_eq]
    omega
  · split
    · rename_i heq
      have hbound := hED heq
      simp only [Bool.and_eq_true, decide_eq_true_eq]
      omega
    · split
      · rename_i heq
        have hbound := hF0 heq
        simp only [Bool.and_eq_true, decide_eq_true_eq]
        omega
      · split
        · rename_i heq
          have hbound := hF4 heq
          simp only [Bool.and_eq_true, decide_eq_true_eq]
          omega
        · simp only [Bool.and_eq_true, decide_eq_true_eq]
          omega

theorem isContinuation_of_toNat {b : UInt8} (hfrom : 0x80 ≤ b.toNat) (hto : b.toNat ≤ 0xBF) :
    isContinuation b = true := by
  simp only [isContinuation, UInt8.le_iff_toNat_le, UInt8.reduceToNat, Bool.and_eq_true,
    decide_eq_true_eq]
  omega

/-- The last bytes of a sequence hold six bits each. -/
theorem toNat_continuation (n : Nat) : (UInt8.ofNat (n % 64 + 128)).toNat = n % 64 + 128 := by
  rw [UInt8.toNat_ofNat']
  omega

section
variable {v : Nat}

theorem isSequence_two (hfrom : 0x80 ≤ v) (hto : v ≤ 0x7FF) :
    IsSequence (.ofNat (v / 64 % 32 + 192)) [.ofNat (v % 64 + 128)] ∧
      scalar (.ofNat (v / 64 % 32 + 192)) [.ofNat (v % 64 + 128)] = v := by
  have hlead : (UInt8.ofNat (v / 64 % 32 + 192)).toNat = v / 64 + 192 := by
    rw [UInt8.toNat_ofNat']
    omega
  have hlast := toNat_continuation v
  refine ⟨⟨?_, List.cons_ne_nil _ _, ?_⟩, ?_⟩
  · rw [hlead, sequenceLength, if_neg (by omega), if_pos (by omega)]
    rfl
  · rw [continues, List.all_nil, Bool.and_true]
    apply followsLead_of_toNat <;> omega
  · simp only [scalar, List.foldl_cons, List.foldl_nil, List.length_cons, List.length_nil, hlead,
      hlast, Nat.pow_eq, Nat.reduceAdd, Nat.reduceSub, Nat.reducePow]
    omega

theorem isSequence_three (hfrom : 0x800 ≤ v) (hto : v ≤ 0xFFFF) (hvalid : v < 0xD800 ∨ 0xDFFF < v) :
    IsSequence (.ofNat (v / 4096 % 16 + 224))
        [.ofNat (v / 64 % 64 + 128), .ofNat (v % 64 + 128)] ∧
      scalar (.ofNat (v / 4096 % 16 + 224))
        [.ofNat (v / 64 % 64 + 128), .ofNat (v % 64 + 128)] = v := by
  have hlead : (UInt8.ofNat (v / 4096 % 16 + 224)).toNat = v / 4096 + 224 := by
    rw [UInt8.toNat_ofNat']
    omega
  have hsecond := toNat_continuation (v / 64)
  have hlast := toNat_continuation v
  refine ⟨⟨?_, List.cons_ne_nil _ _, ?_⟩, ?_⟩
  · rw [hlead, sequenceLength, if_neg (by omega), if_neg (by omega), if_pos (by omega)]
    rfl
  · rw [continues, List.all_cons, List.all_nil, Bool.and_true,
      isContinuation_of_toNat (by omega) (by omega), Bool.and_true]
    apply followsLead_of_toNat <;> omega
  · simp only [scalar, List.foldl_cons, List.foldl_nil, List.length_cons, List.length_nil, hlead,
      hsecond, hlast, Nat.pow_eq, Nat.reduceAdd, Nat.reduceSub, Nat.reducePow]
    omega

theorem isSequence_four (hfrom : 0x10000 ≤ v) (hto : v < 0x110000) :
    IsSequence (.ofNat (v / 262144 % 8 + 240)) [.ofNat (v / 4096 % 64 + 128),
        .ofNat (v / 64 % 64 + 128), .ofNat (v % 64 + 128)] ∧
      scalar (.ofNat (v / 262144 % 8 + 240)) [.ofNat (v / 4096 % 64 + 128),
        .ofNat (v / 64 % 64 + 128), .ofNat (v % 64 + 128)] = v := by
  have hlead : (UInt8.ofNat (v / 262144 % 8 + 240)).toNat = v / 262144 + 240 := by
    rw [UInt8.toNat_ofNat']
    omega
  have hsecond := toNat_continuation (v / 4096)
  have hthird := toNat_continuation (v / 64)
  have hlast := toNat_continuation v
  refine ⟨⟨?_, List.cons_ne_nil _ _, ?_⟩, ?_⟩
  · rw [hlead, sequenceLength, if_neg (by omega), if_neg (by omega), if_neg (by omega)]
    rfl
  · rw [continues, List.all_cons, List.all_cons, List.all_nil, Bool.and_true,
      isContinuation_of_toNat (by omega) (by omega),
      isContinuation_of_toNat (by omega) (by omega), Bool.and_true, Bool.and_true]
    apply followsLead_of_toNat <;> omega
  · simp only [scalar, List.foldl_cons, List.foldl_nil, List.length_cons, List.length_nil, hlead,
      hsecond, hthird, hlast, Nat.pow_eq, Nat.reduceAdd, Nat.reduceSub, Nat.reducePow]
    omega

end

/-- A character is encoded by one byte or by a whole sequence, and these spell its number. -/
theorem encode_char (c : Char) :
    (∃ b : UInt8, String.utf8EncodeChar c = [b] ∧ b < 0x80 ∧ Char.ofNat b.toNat = c) ∨
    ∃ lead tail, String.utf8EncodeChar c = lead :: tail ∧ IsSequence lead tail ∧
      Char.ofNat (scalar lead tail) = c := by
  have hvalid : c.val.toNat < 0xD800 ∨ 0xDFFF < c.val.toNat ∧ c.val.toNat < 0x110000 := c.valid
  have hsame : Char.ofNat c.val.toNat = c := Char.ofNat_toNat c
  generalize hv : c.val.toNat = v at hvalid hsame
  rw [String.utf8EncodeChar]
  simp only [hv]
  by_cases hone : v ≤ 0x7F
  · rw [if_pos hone]
    have htoNat : (UInt8.ofNat v).toNat = v := by
      rw [UInt8.toNat_ofNat']
      omega
    refine Or.inl ⟨_, rfl, ?_, ?_⟩
    · rw [UInt8.lt_iff_toNat_lt, htoNat]
      exact Nat.lt_succ_of_le hone
    · rw [htoNat, hsame]
  · rw [if_neg hone]
    right
    by_cases htwo : v ≤ 0x7FF
    · rw [if_pos htwo]
      obtain ⟨hsequence, hscalar⟩ := isSequence_two (by omega) htwo
      exact ⟨_, _, rfl, hsequence, by rw [hscalar, hsame]⟩
    · rw [if_neg htwo]
      by_cases hthree : v ≤ 0xFFFF
      · rw [if_pos hthree]
        obtain ⟨hsequence, hscalar⟩ := isSequence_three (by omega) hthree (by omega)
        exact ⟨_, _, rfl, hsequence, by rw [hscalar, hsame]⟩
      · rw [if_neg hthree]
        obtain ⟨hsequence, hscalar⟩ := isSequence_four (v := v) (by omega) (by omega)
        exact ⟨_, _, rfl, hsequence, by rw [hscalar, hsame]⟩

/-! ## Encoded text -/

/-- Encoded text decodes to its first character. -/
theorem decode_encode (c : Char) (rest : Bytes) :
    decode (String.utf8EncodeChar c ++ rest) = some ⟨c, c.utf8Size⟩ := by
  rw [← String.length_utf8EncodeChar]
  rcases encode_char c with ⟨b, hencode, hascii, hchar⟩ | ⟨lead, tail, hencode, hsequence, hchar⟩
  · rw [hencode, List.singleton_append, decode]
    simp only [if_pos hascii, hchar]
    rfl
  · rw [hencode, hsequence.decode_eq, hchar, List.length_cons]

/-- The bytes of the first character belong together. -/
theorem subpart_encode (c : Char) (rest : Bytes) :
    subpart (String.utf8EncodeChar c ++ rest) = (String.utf8EncodeChar c).length := by
  rcases encode_char c with ⟨b, hencode, hascii, -⟩ | ⟨lead, tail, hencode, hsequence, -⟩
  · have hsmall : (b.toNat : Int) < 0xC2 := by
      have hlt : b.toNat < 0x80 := hascii
      omega
    rw [hencode, List.singleton_append, List.length_singleton]
    cases rest with
    | nil => rfl
    | cons second rest =>
      rw [subpart, sequenceLength, if_pos (Or.inl hsmall)]
      rfl
  · rw [hencode, hsequence.subpart_eq, List.length_cons]

/-- Encoded text is read as the text. -/
theorem codepoints_encode (text : List Char) :
    codepoints (encode text) = text.map fun c => ⟨c, c.utf8Size⟩ := by
  induction text with
  | nil => exact codepoints_nil
  | cons c text ih =>
    rw [encode_cons, codepoints_of_decode (decode_encode c _), ← String.length_utf8EncodeChar,
      List.drop_left, ih, List.map_cons, String.length_utf8EncodeChar]

/-- The bytes of the first character are shown as that character. -/
theorem text_encode_append (c : Char) (rest : Bytes) :
    text (String.utf8EncodeChar c ++ rest) = c :: text rest := by
  have hnonempty : String.utf8EncodeChar c ++ rest ≠ [] := by
    intro hnil
    have hlength := String.length_utf8EncodeChar c
    rw [(List.append_eq_nil_iff.mp hnil).1, List.length_nil] at hlength
    exact Nat.ne_of_lt c.utf8Size_pos hlength
  have hshown : shown (String.utf8EncodeChar c) = c := by
    have hdecode := decode_encode c []
    rw [List.append_nil] at hdecode
    rw [shown, hdecode]
  rw [Utf8.text, dif_neg hnonempty, subpart_encode, List.take_left, List.drop_left, hshown]

/-- Encoded text is shown as the text. -/
theorem text_encode (chars : List Char) : text (encode chars) = chars := by
  induction chars with
  | nil => exact text_nil
  | cons c chars ih => rw [encode_cons, text_encode_append, ih]

end StreamScan.Utf8

import StreamScan.Proofs.Utf8.Encoding

/-!
# A whole sequence is a character

Text that was encoded is read back.  The other direction is shown here: a byte below 0x80, and a
lead byte with the bytes of its sequence, always encode a character.  The leads that admit fewer
second bytes are what makes it true; without them there would be sequences that spell a surrogate, a
number above U+10FFFF, or a number that fewer bytes can spell, and no character is encoded by those.

So what a scan does with bytes can be said in terms of the encoding alone.  If the bytes of a
character come first, that character is decoded, and in any other case one byte is replaced.  A
front is not settled just if it breaks off inside the bytes of some character: any other way to go
on leaves it a byte to be replaced, but those of that character are decoded to it.

* **`IsSequence.exists_char`** — a whole sequence encodes a character.
* **`starts_iff`** — which byte strings begin with the bytes of a character.
* **`decode_inverts`** — these are decoded to it, and all others to a replacement.
* **`exists_isSequence_of_open`** — an unsettled front can be completed.
* **`settled_iff_stays`** — being settled is to decode alike whatever follows.
-/

namespace StreamScan.Utf8

/-! ## The numbers of the bytes -/

/-- Which lead bytes announce a sequence of so many bytes. -/
theorem lead_range (lead : UInt8) :
    (sequenceLength lead.toNat = 2 → 0xC2 ≤ lead.toNat ∧ lead.toNat ≤ 0xDF) ∧
    (sequenceLength lead.toNat = 3 → 0xE0 ≤ lead.toNat ∧ lead.toNat ≤ 0xEF) ∧
    (sequenceLength lead.toNat = 4 → 0xF0 ≤ lead.toNat ∧ lead.toNat ≤ 0xF4) := by
  rw [sequenceLength]
  split
  · omega
  · split
    · omega
    · split <;> omega

theorem continuation_range {b : UInt8} (h : isContinuation b = true) :
    0x80 ≤ b.toNat ∧ b.toNat ≤ 0xBF := by
  simp only [isContinuation, UInt8.le_iff_toNat_le, UInt8.reduceToNat, Bool.and_eq_true,
    decide_eq_true_eq] at h
  exact h

/-- Which bytes can stand second; the converse of `followsLead_of_toNat`. -/
theorem second_range {lead b : UInt8} (h : followsLead lead b = true) :
    (0x80 ≤ b.toNat ∧ b.toNat ≤ 0xBF) ∧ (lead.toNat = 0xE0 → 0xA0 ≤ b.toNat) ∧
      (lead.toNat = 0xED → b.toNat ≤ 0x9F) ∧ (lead.toNat = 0xF0 → 0x90 ≤ b.toNat) ∧
      (lead.toNat = 0xF4 → b.toNat ≤ 0x8F) := by
  have hrange := continuation_range (isContinuation_of_followsLead h)
  simp only [followsLead, ← UInt8.toNat_inj, UInt8.le_iff_toNat_le, UInt8.reduceToNat] at h
  refine ⟨hrange, fun heq => ?_, fun heq => ?_, fun heq => ?_, fun heq => ?_⟩ <;>
    simp [heq] at h <;> omega

theorem toNat_val_ofNat {v : Nat} (h : v.isValidChar) : (Char.ofNat v).val.toNat = v := by
  rw [Char.ofNat, dif_pos h]
  rfl

/-! ## The character of a sequence -/

section
variable {lead second third fourth : UInt8}

theorem exists_char_one (hlead : lead < 0x80) :
    ∃ c : Char, String.utf8EncodeChar c = [lead] := by
  have hsmall : lead.toNat < 0x80 := hlead
  have hvalid : lead.toNat.isValidChar := Or.inl (by omega)
  refine ⟨Char.ofNat lead.toNat, ?_⟩
  rw [String.utf8EncodeChar]
  simp only [toNat_val_ofNat hvalid]
  rw [if_pos (by omega), UInt8.ofNat_toNat]

/- In the other cases the number that the sequence spells is taken apart again.  That the second
   byte is one that the lead admits bounds it from below, so that it needs as many bytes, and from
   above, so that it is a character. -/

theorem exists_char_two (hlead : 0xC2 ≤ lead.toNat ∧ lead.toNat ≤ 0xDF)
    (hsecond : followsLead lead second = true) :
    ∃ c : Char, String.utf8EncodeChar c = [lead, second] := by
  obtain ⟨hrange, -⟩ := second_range hsecond
  obtain ⟨v, hv⟩ : ∃ v, v = (lead.toNat - 0xC0) * 64 + (second.toNat - 0x80) := ⟨_, rfl⟩
  have hlead' : v / 64 % 32 + 192 = lead.toNat := by omega
  have hsecond' : v % 64 + 128 = second.toNat := by omega
  have hvalid : v.isValidChar := Or.inl (by omega)
  refine ⟨Char.ofNat v, ?_⟩
  rw [String.utf8EncodeChar]
  simp only [toNat_val_ofNat hvalid]
  rw [if_neg (by omega), if_pos (by omega), hlead', hsecond', UInt8.ofNat_toNat, UInt8.ofNat_toNat]

theorem exists_char_three (hlead : 0xE0 ≤ lead.toNat ∧ lead.toNat ≤ 0xEF)
    (hsecond : followsLead lead second = true) (hthird : isContinuation third = true) :
    ∃ c : Char, String.utf8EncodeChar c = [lead, second, third] := by
  obtain ⟨hrange, hE0, hED, -⟩ := second_range hsecond
  have hrange' := continuation_range hthird
  obtain ⟨v, hv⟩ : ∃ v, v = (lead.toNat - 0xE0) * 4096 + (second.toNat - 0x80) * 64 +
    (third.toNat - 0x80) := ⟨_, rfl⟩
  have hlead' : v / 4096 % 16 + 224 = lead.toNat := by omega
  have hsecond' : v / 64 % 64 + 128 = second.toNat := by omega
  have hthird' : v % 64 + 128 = third.toNat := by omega
  have hvalid : v.isValidChar := by
    -- the surrogates lie between the sequences of 0xED and those of 0xEE
    by_cases hbelow : lead.toNat ≤ 0xED
    · exact Or.inl (by omega)
    · exact Or.inr (by omega)
  refine ⟨Char.ofNat v, ?_⟩
  rw [String.utf8EncodeChar]
  simp only [toNat_val_ofNat hvalid]
  rw [if_neg (by omega), if_neg (by omega), if_pos (by omega), hlead', hsecond', hthird',
    UInt8.ofNat_toNat, UInt8.ofNat_toNat, UInt8.ofNat_toNat]

theorem exists_char_four (hlead : 0xF0 ≤ lead.toNat ∧ lead.toNat ≤ 0xF4)
    (hsecond : followsLead lead second = true) (hthird : isContinuation third = true)
    (hfourth : isContinuation fourth = true) :
    ∃ c : Char, String.utf8EncodeChar c = [lead, second, third, fourth] := by
  obtain ⟨hrange, -, -, hF0, hF4⟩ := second_range hsecond
  have hrange' := continuation_range hthird
  have hrange'' := continuation_range hfourth
  obtain ⟨v, hv⟩ : ∃ v, v = (lead.toNat - 0xF0) * 262144 + (second.toNat - 0x80) * 4096 +
    (third.toNat - 0x80) * 64 + (fourth.toNat - 0x80) := ⟨_, rfl⟩
  have hlead' : v / 262144 % 8 + 240 = lead.toNat := by omega
  have hsecond' : v / 4096 % 64 + 128 = second.toNat := by omega
  have hthird' : v / 64 % 64 + 128 = third.toNat := by omega
  have hfourth' : v % 64 + 128 = fourth.toNat := by omega
  have hvalid : v.isValidChar := Or.inr (by omega)
  refine ⟨Char.ofNat v, ?_⟩
  rw [String.utf8EncodeChar]
  simp only [toNat_val_ofNat hvalid]
  rw [if_neg (by omega), if_neg (by omega), if_neg (by omega), hlead', hsecond', hthird',
    hfourth', UInt8.ofNat_toNat, UInt8.ofNat_toNat, UInt8.ofNat_toNat, UInt8.ofNat_toNat]

end

section
variable {lead : UInt8} {tail rest : Bytes}

/-- A whole sequence encodes a character. -/
theorem IsSequence.exists_char (h : IsSequence lead tail) :
    ∃ c : Char, String.utf8EncodeChar c = lead :: tail := by
  obtain ⟨hlength, hsome, hfollows⟩ := h
  obtain ⟨htwo, hthree, hfour⟩ := lead_range lead
  have hmost := sequenceLength_le lead.toNat
  rw [← hlength] at htwo hthree hfour hmost
  match tail with
  | [] => exact absurd rfl hsome
  | [second] =>
    rw [continues, Bool.and_eq_true] at hfollows
    exact exists_char_two (htwo rfl) hfollows.1
  | [second, third] =>
    simp only [continues, List.all_cons, Bool.and_eq_true] at hfollows
    exact exists_char_three (hthree rfl) hfollows.1 hfollows.2.1
  | [second, third, fourth] =>
    simp only [continues, List.all_cons, Bool.and_eq_true] at hfollows
    exact exists_char_four (hfour rfl) hfollows.1 hfollows.2.1 hfollows.2.2.1
  | _ :: _ :: _ :: _ :: _ =>
    simp only [List.length_cons, maxLength] at hmost
    omega

/-! ## Which characters are decoded -/

/-- A byte string begins with the bytes of a character if its first byte is below 0x80 or leads a
    whole sequence. -/
theorem starts_iff : (∃ c : Char, String.utf8EncodeChar c <+: lead :: rest) ↔
    lead < 0x80 ∨ IsSequence lead (rest.take (sequenceLength lead.toNat - 1)) := by
  constructor
  · rintro ⟨c, hfront⟩
    rcases encode_char c with ⟨b, hencode, hascii, -⟩ | ⟨lead', tail, hencode, hsequence, -⟩
    · rw [hencode, List.cons_prefix_cons] at hfront
      obtain ⟨rfl, -⟩ := hfront
      exact Or.inl hascii
    · rw [hencode, List.cons_prefix_cons] at hfront
      obtain ⟨rfl, htail⟩ := hfront
      have hlength := hsequence.length_eq
      rw [← hlength, Nat.add_sub_cancel, ← List.prefix_iff_eq_take.mp htail]
      exact Or.inr hsequence
  · rintro (hascii | hsequence)
    · obtain ⟨c, hencode⟩ := exists_char_one hascii
      refine ⟨c, ?_⟩
      rw [hencode, List.cons_prefix_cons]
      exact ⟨rfl, List.nil_prefix⟩
    · obtain ⟨c, hencode⟩ := hsequence.exists_char
      refine ⟨c, ?_⟩
      rw [hencode, List.cons_prefix_cons]
      exact ⟨rfl, List.take_prefix _ _⟩

/-- Whatever is not below 0x80 and leads no whole sequence is replaced. -/
theorem decode_of_not_starts (hascii : ¬ lead < 0x80)
    (hsequence : ¬ IsSequence lead (rest.take (sequenceLength lead.toNat - 1))) :
    decode (lead :: rest) = some replacement := by
  have hone := one_le_sequenceLength lead.toNat
  simp only [decode, if_neg hascii]
  rw [if_pos]
  refine Decidable.byContradiction fun hwhole => ?_
  rw [not_or, not_or, Bool.not_eq_false, Nat.not_lt] at hwhole
  obtain ⟨hlong, hall, hfollows⟩ := hwhole
  have hlength : (rest.take (sequenceLength lead.toNat - 1)).length =
      sequenceLength lead.toNat - 1 :=
    Nat.le_antisymm (List.length_take_le _ _) hall
  refine hsequence ⟨by omega, ?_, hfollows⟩
  intro hnil
  rw [hnil, List.length_nil] at hlength
  omega

end

/-- Decoding inverts the encoding and nothing else: behind the bytes of a character anything may
    follow, and bytes that begin with those of no character are replaced one by one. -/
theorem decode_inverts :
    (∀ (c : Char) (rest : Bytes), decode (String.utf8EncodeChar c ++ rest) =
        some ⟨c, (String.utf8EncodeChar c).length⟩) ∧
      ∀ b : Bytes, b ≠ [] → (∀ c : Char, ¬ String.utf8EncodeChar c <+: b) →
        decode b = some replacement := by
  constructor
  · intro c rest
    rw [decode_encode, String.length_utf8EncodeChar]
  · intro b hsome hnone
    cases b with
    | nil => exact absurd rfl hsome
    | cons lead rest =>
      have hnot := mt starts_iff.mpr (not_exists.mpr hnone)
      rw [not_or] at hnot
      exact decode_of_not_starts hnot.1 hnot.2

/-- The bytes of a surrogate, which no character begins with. -/
theorem decode_inverts_surrogate :
    (∀ c : Char, ¬ String.utf8EncodeChar c <+: [0xED, 0xA0, 0x80]) ∧
      decode [0xED, 0xA0, 0x80] = some replacement := by
  have hnone : ∀ c : Char, ¬ String.utf8EncodeChar c <+: [0xED, 0xA0, 0x80] := by
    intro c hfront
    rcases starts_iff.mp ⟨c, hfront⟩ with hascii | hsequence
    · exact absurd hascii (by decide)
    · exact absurd hsequence.follows (by decide)
  exact ⟨hnone, decode_inverts.2 _ (List.cons_ne_nil _ _) hnone⟩

/-! ## Which fronts are settled -/

/-- Every lead byte admits some second byte. -/
theorem exists_second (lead : UInt8) : ∃ second, followsLead lead second = true := by
  by_cases hE0 : lead = 0xE0
  · exact ⟨0xA0, by rw [hE0]; decide⟩
  · by_cases hF0 : lead = 0xF0
    · exact ⟨0x90, by rw [hF0]; decide⟩
    · -- the others admit the least byte that continues a sequence
      refine ⟨0x80, ?_⟩
      rw [followsLead, if_neg hE0, if_neg hF0]
      split
      · decide
      · split <;> decide

/-- An unsettled front can be completed to a whole sequence. -/
theorem exists_isSequence_of_open {lead : UInt8} {rest : Bytes}
    (hopen : settled (lead :: rest) = false) :
    ∃ more, more ≠ [] ∧ IsSequence lead (rest ++ more) := by
  rw [← Bool.not_eq_true, settled_cons, not_or, Bool.not_eq_false, Nat.not_le] at hopen
  obtain ⟨hshort, hfollows⟩ := hopen
  have hpad (n : Nat) : (List.replicate n (0x80 : UInt8)).all isContinuation = true := by
    rw [List.all_replicate]
    simp only [show isContinuation 0x80 = true from rfl, ite_self]
  cases rest with
  | nil =>
    obtain ⟨second, hsecond⟩ := exists_second lead
    rw [List.length_nil] at hshort
    refine ⟨second :: List.replicate (sequenceLength lead.toNat - 2) 0x80, List.cons_ne_nil _ _, ?_,
      List.cons_ne_nil _ _, ?_⟩
    · rw [List.nil_append, List.length_cons, List.length_replicate]
      omega
    · rw [List.nil_append, continues, hsecond, hpad]
      rfl
  | cons second others =>
    rw [continues, Bool.and_eq_true] at hfollows
    rw [List.length_cons] at hshort
    refine ⟨List.replicate (sequenceLength lead.toNat - 1 - (others.length + 1)) 0x80, ?_, ?_,
      List.cons_ne_nil _ _, ?_⟩
    · intro hnil
      rw [List.replicate_eq_nil_iff] at hnil
      omega
    · rw [List.length_append, List.length_cons, List.length_replicate]
      omega
    · rw [List.cons_append, continues, List.all_append, hfollows.1, hfollows.2, hpad]
      rfl

section
variable {b : Bytes}

/-- A proper front of the bytes of a character. -/
structure BreaksOff (b : Bytes) (c : Char) : Prop where
  front : b <+: String.utf8EncodeChar c
  unfinished : b ≠ String.utf8EncodeChar c

/-- An unsettled front breaks off inside the bytes of some character. -/
theorem exists_breaksOff (hsome : b ≠ []) (hopen : settled b = false) : ∃ c, BreaksOff b c := by
  cases b with
  | nil => exact absurd rfl hsome
  | cons lead rest =>
    obtain ⟨more, hmore, hsequence⟩ := exists_isSequence_of_open hopen
    obtain ⟨c, hencode⟩ := hsequence.exists_char
    rw [← List.cons_append] at hencode
    refine ⟨c, ?_, ?_⟩
    · rw [hencode]
      exact List.prefix_append _ _
    · intro hall
      rw [hencode] at hall
      exact hmore (List.self_eq_append_right.mp hall)

theorem BreaksOff.length_lt {c : Char} (h : BreaksOff b c) : b.length < c.utf8Size := by
  rw [← String.length_utf8EncodeChar]
  exact Nat.lt_of_le_of_ne h.front.length_le fun heq => h.unfinished (h.front.eq_of_length heq)

/-- Such a front is undecided, and its first byte would be replaced. -/
theorem BreaksOff.decode_eq {c : Char} (h : BreaksOff b c) (hsome : b ≠ []) :
    settled b = false ∧ decode b = some replacement := by
  have hdecode := decode_encode c []
  rw [List.append_nil] at hdecode
  have htake := decode_take_of_lt_size hdecode (List.length_pos_iff.mpr hsome) h.length_lt
  rw [← List.prefix_iff_eq_take.mp h.front] at htake
  exact htake

/-- Bytes are settled just if they decode alike whatever follows, and they are not just if they
    break off inside the bytes of a character. -/
theorem settled_iff_stays (hsome : b ≠ []) :
    (settled b = true ↔ ∀ more, decode (b ++ more) = decode b) ∧
      (settled b = false ↔ ∃ c, BreaksOff b c) := by
  refine ⟨⟨decode_append_of_settled, fun hstays => ?_⟩, exists_breaksOff hsome,
    fun ⟨c, hbreaks⟩ => (hbreaks.decode_eq hsome).1⟩
  refine Decidable.byContradiction fun hopen => ?_
  -- the rest of that character would change the replacement into it
  obtain ⟨c, hbreaks⟩ := exists_breaksOff hsome (Bool.eq_false_iff.mpr hopen)
  obtain ⟨more, hmore⟩ := hbreaks.front
  have hwhole := decode_encode c []
  rw [List.append_nil, ← hmore, hstays more, (hbreaks.decode_eq hsome).2] at hwhole
  have hsize : 1 = c.utf8Size := congrArg Codepoint.size (Option.some.inj hwhole)
  have hlength := hbreaks.length_lt
  have hpositive := List.length_pos_iff.mpr hsome
  omega

end

/-- Two bytes of the euro sign wait for the third, and two that no character has do not. -/
theorem settled_iff_stays_euro :
    ([0xE2, 0x82] : Bytes) ≠ [] ∧ (∃ c, BreaksOff [0xE2, 0x82] c) ∧
      ([0xE0, 0x82] : Bytes) ≠ [] ∧
      ∀ more, decode ([0xE0, 0x82] ++ more) = decode [0xE0, 0x82] :=
  ⟨List.cons_ne_nil _ _, (settled_iff_stays (List.cons_ne_nil _ _)).2.mp (by decide),
    List.cons_ne_nil _ _, (settled_iff_stays (List.cons_ne_nil _ _)).1.mp (by decide)⟩

end StreamScan.Utf8

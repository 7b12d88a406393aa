import StreamScan.Match
import StreamScan.Proofs.Utf8.Sequences

/-!
# Replacing byte by byte, and sequence by sequence

Two texts are made of the same bytes.  A scan matches the one that has a replacement for every byte
that belongs to no character; a match shows the one that has a replacement for every sequence that
breaks off.  The two go out of step inside such a sequence, since a scan looks again at every byte
of it, and meet again behind it.

Where they meet can be said without either of them.  A byte string is cut into stretches: one is the
bytes of a character where these come next, and otherwise a *maximal subpart*, the longest front
that could have gone on to be the bytes of a character, or else a single byte.  A character that was
written as U+FFFD is a stretch like those of other characters, and is no replacement.

* **`MaximalSubpart`**, **`CutInto`** — the stretches of a byte string, said in terms of the
  encoding alone.
* **`maximalSubpart_iff`** — how long a maximal subpart is.
* **`CutInto.codepoints_eq`**, **`CutInto.text_eq`** — what is read of the stretches, and what they
  show as, by induction over the cut.
* **`text_condenses`** — the one text is the other with each row of replacements made one.
-/

namespace StreamScan.Utf8

/-! ## Stretches -/

/-- A front of a byte string that belongs together: it could go on to be the bytes of a character,
    or it is a single byte. -/
structure Coherent (b part : Bytes) : Prop where
  front : part <+: b
  begun : part.length = 1 ∨ part ≠ [] ∧ ∃ c, part <+: String.utf8EncodeChar c

/-- The longest coherent front of a byte string that begins with the bytes of no character. -/
structure MaximalSubpart (b part : Bytes) : Prop where
  illFormed : ∀ c, ¬ String.utf8EncodeChar c <+: b
  coherent : Coherent b part
  longest : ∀ other, Coherent b other → other.length ≤ part.length

/-- A stretch of a byte string: the bytes of a character, or a subpart that is none. -/
inductive Stretch where
  | whole (c : Char)
  | broken (part : Bytes)

namespace Stretch

/-- What a scan reads: the character, or a replacement for each byte. -/
def read : Stretch → List Char
  | whole c => [c]
  | broken part => List.replicate part.length replacement.char

/-- What a match shows: the character, or one replacement. -/
def shown : Stretch → Char
  | whole c => c
  | broken _ => replacement.char

end Stretch

/-- The stretches that a byte string is cut into. -/
inductive CutInto : Bytes → List Stretch → Prop
  | nil : CutInto [] []
  | whole {b rest : Bytes} {c : Char} {stretches : List Stretch}
    (split : b = String.utf8EncodeChar c ++ rest) (after : CutInto rest stretches) :
    CutInto b (.whole c :: stretches)
  | broken {b part rest : Bytes} {stretches : List Stretch} (split : b = part ++ rest)
    (maximal : MaximalSubpart b part) (after : CutInto rest stretches) :
    CutInto b (.broken part :: stretches)

/-! ## How long a maximal subpart is -/

/-- The bytes that go on a sequence all continue one. -/
theorem all_take_continuing (more : Nat) (bytes : Bytes) :
    (bytes.take (continuing more bytes)).all isContinuation = true := by
  induction bytes generalizing more with
  | nil => rw [List.take_nil, List.all_nil]
  | cons b bytes ih =>
    cases more with
    | zero => rfl
    | succ more =>
      rw [continuing]
      by_cases hb : isContinuation b = true
      · rw [if_pos hb, List.take_succ_cons, List.all_cons, hb, ih, Bool.and_true]
      · rw [if_neg hb, List.take_zero, List.all_nil]

theorem continuing_le (more : Nat) (bytes : Bytes) :
    continuing more bytes ≤ more ∧ continuing more bytes ≤ bytes.length := by
  induction bytes generalizing more with
  | nil => cases more <;> exact ⟨Nat.zero_le _, Nat.zero_le _⟩
  | cons b bytes ih =>
    cases more with
    | zero => exact ⟨Nat.zero_le _, Nat.zero_le _⟩
    | succ more =>
      have hrest := ih more
      rw [continuing, List.length_cons]
      split <;> omega

/-- Behind them stands a byte that does not, unless the sequence is long enough. -/
theorem not_all_take {more : Nat} {bytes : Bytes} {n : Nat} (hmore : continuing more bytes < n)
    (hn : n ≤ more) (hlength : n ≤ bytes.length) :
    (bytes.take n).all isContinuation = false := by
  induction bytes generalizing more n with
  | nil => simp only [List.length_nil] at hlength; omega
  | cons b bytes ih =>
    obtain ⟨n, rfl⟩ := Nat.exists_eq_add_one_of_ne_zero (Nat.ne_zero_of_lt hmore)
    obtain ⟨more, rfl⟩ := Nat.exists_eq_add_one_of_ne_zero (n := more) (by omega)
    rw [continuing] at hmore
    rw [List.take_succ_cons, List.all_cons]
    by_cases hb : isContinuation b = true
    · rw [if_pos hb] at hmore
      rw [List.length_cons] at hlength
      have hrest : continuing more bytes < n := by omega
      rw [ih hrest (by omega) (by omega), Bool.and_false]
    · rw [Bool.eq_false_iff.mpr hb, Bool.false_and]

section
variable {b part rest : Bytes}

/-- What belongs together at the front of an ill-formed byte string is a single byte, or a front
    that waits for more. -/
theorem coherent_iff (hnone : ∀ c, ¬ String.utf8EncodeChar c <+: b) :
    Coherent b part ↔
      part <+: b ∧ (part.length = 1 ∨ part ≠ [] ∧ settled part = false) := by
  constructor
  · rintro ⟨hfront, hone | ⟨hsome, c, hc⟩⟩
    · exact ⟨hfront, Or.inl hone⟩
    · have hbreaks : BreaksOff part c := ⟨hc, fun hall => hnone c (hall ▸ hfront)⟩
      exact ⟨hfront, Or.inr ⟨hsome, (hbreaks.decode_eq hsome).1⟩⟩
  · rintro ⟨hfront, hone | ⟨hsome, hopen⟩⟩
    · exact ⟨hfront, Or.inl hone⟩
    · obtain ⟨c, hbreaks⟩ := exists_breaksOff hsome hopen
      exact ⟨hfront, Or.inr ⟨hsome, c, hbreaks.front⟩⟩

theorem subpart_le_length (b : Bytes) : subpart b ≤ b.length := by
  match b with
  | [] => exact Nat.le_refl _
  | [_] => exact Nat.le_refl _
  | lead :: second :: rest =>
    have hle := continuing_le (sequenceLength lead.toNat - 2) rest
    simp only [subpart, List.length_cons]
    split
    · omega
    · split <;> omega

/-- The bytes that belong together at the front of an ill-formed byte string wait for more, unless
    there is only one. -/
theorem settled_take_subpart (hnone : ∀ c, ¬ String.utf8EncodeChar c <+: b)
    (hlong : 1 < subpart b) : settled (b.take (subpart b)) = false := by
  rcases b with _ | ⟨lead, _ | ⟨second, rest⟩⟩
  · exact absurd hlong (Nat.not_lt_zero 1)
  · exact absurd hlong (Nat.lt_irrefl 1)
  · simp only [subpart] at hlong ⊢
    by_cases hone : sequenceLength lead.toNat ≤ 1
    · rw [if_pos hone] at hlong
      exact absurd hlong (Nat.lt_irrefl 1)
    · rw [if_neg hone] at hlong ⊢
      by_cases hsecond : followsLead lead second = true
      · rw [if_pos hsecond]
        have hall := all_take_continuing (sequenceLength lead.toNat - 2) rest
        obtain ⟨hle, hinside⟩ := continuing_le (sequenceLength lead.toNat - 2) rest
        have hfollows : continues lead (second :: rest.take
            (continuing (sequenceLength lead.toNat - 2) rest)) = true := by
          rw [continues, hsecond, hall, Bool.and_true]
        rw [List.take_succ_cons, List.take_succ_cons, ← Bool.not_eq_true, settled_cons, not_or,
          Bool.not_eq_false]
        refine ⟨fun hwhole => ?_, hfollows⟩
        -- if all of the sequence were there, the byte string would begin with a character
        rw [List.length_cons, List.length_take, Nat.min_eq_left hinside] at hwhole
        have htake : continuing (sequenceLength lead.toNat - 2) rest + 1 =
            sequenceLength lead.toNat - 1 := by omega
        have hsequence : IsSequence lead
            ((second :: rest).take (sequenceLength lead.toNat - 1)) := by
          rw [← htake, List.take_succ_cons]
          refine ⟨?_, List.cons_ne_nil _ _, hfollows⟩
          rw [List.length_cons, List.length_take, Nat.min_eq_left hinside]
          omega
        exact not_exists.mpr hnone (starts_iff.mpr (Or.inr hsequence))
      · rw [if_neg hsecond] at hlong
        exact absurd hlong (Nat.lt_irrefl 1)

/-- A longer front does not wait for more. -/
theorem settled_take_of_subpart_lt {n : Nat} (hpos : 0 < subpart b) (hn : subpart b < n)
    (hlength : n ≤ b.length) : settled (b.take n) = true := by
  rcases b with _ | ⟨lead, _ | ⟨second, rest⟩⟩
  · exact absurd hpos (Nat.lt_irrefl 0)
  · simp only [subpart, List.length_singleton] at hn hlength
    omega
  · obtain ⟨n, rfl⟩ : ∃ m, n = m + 2 := ⟨n - 2, by omega⟩
    simp only [List.length_cons] at hlength
    simp only [subpart] at hn
    rw [List.take_succ_cons, List.take_succ_cons, settled_cons, List.length_cons, List.length_take,
      Nat.min_eq_left (by omega), continues]
    by_cases hone : sequenceLength lead.toNat ≤ 1
    · exact Or.inl (by omega)
    · by_cases hsecond : followsLead lead second = true
      · rw [if_neg hone, if_pos hsecond] at hn
        by_cases hwhole : sequenceLength lead.toNat ≤ n + 1 + 1
        · exact Or.inl hwhole
        · have hstops : continuing (sequenceLength lead.toNat - 2) rest < n := by omega
          rw [not_all_take hstops (by omega) (by omega), Bool.and_false]
          exact Or.inr rfl
      · rw [Bool.eq_false_iff.mpr hsecond, Bool.false_and]
        exact Or.inr rfl

/-- The maximal subpart of an ill-formed byte string is the stretch that a match replaces. -/
theorem maximalSubpart_iff (hsome : b ≠ []) (hnone : ∀ c, ¬ String.utf8EncodeChar c <+: b) :
    MaximalSubpart b part ↔ part = b.take (subpart b) := by
  have hpos := subpart_pos hsome
  have hlength : (b.take (subpart b)).length = subpart b := by
    rw [List.length_take, Nat.min_eq_left (subpart_le_length b)]
  have hcoherent : Coherent b (b.take (subpart b)) := by
    refine (coherent_iff hnone).mpr ⟨List.take_prefix _ _, ?_⟩
    rw [hlength, ← List.length_pos_iff, hlength]
    rcases Nat.eq_or_lt_of_le hpos with hone | hlong
    · exact Or.inl hone.symm
    · exact Or.inr ⟨hpos, settled_take_subpart hnone hlong⟩
  have hlongest : ∀ other, Coherent b other → other.length ≤ subpart b := by
    intro other hother
    obtain ⟨hfront, hwaits⟩ := (coherent_iff hnone).mp hother
    refine Nat.le_of_not_lt fun hlonger => ?_
    have hsettled := settled_take_of_subpart_lt hpos hlonger hfront.length_le
    rw [← List.prefix_iff_eq_take.mp hfront] at hsettled
    rcases hwaits with hone | ⟨-, hopen⟩
    · omega
    · exact Bool.false_ne_true (hopen.symm.trans hsettled)
  constructor
  · rintro ⟨-, hpart, hmost⟩
    have hle := hlongest part hpart
    have hge := hmost _ hcoherent
    rw [hlength] at hge
    rw [List.prefix_iff_eq_take.mp hpart.front, Nat.le_antisymm hle hge]
  · rintro rfl
    exact ⟨hnone, hcoherent, fun other hother => by rw [hlength]; exact hlongest other hother⟩

/-! ## What becomes of the stretches -/

/-- A byte that continues a sequence leads none, and is replaced by itself. -/
theorem decode_of_isContinuation {byte : UInt8} (h : isContinuation byte = true) (rest : Bytes) :
    decode (byte :: rest) = some replacement := by
  have hrange := continuation_range h
  have hone : sequenceLength byte.toNat = 1 := by
    rw [sequenceLength, if_pos (Or.inl (by omega))]
  refine decode_of_not_starts (fun hascii => ?_) fun hsequence => ?_
  · have hsmall : byte.toNat < 0x80 := hascii
    omega
  · have hlength := hsequence.length_eq
    have hpositive := List.length_pos_iff.mpr hsequence.nonempty
    omega

theorem codepoints_continuations {bytes : Bytes} (h : bytes.all isContinuation = true)
    (rest : Bytes) :
    codepoints (bytes ++ rest) = List.replicate bytes.length replacement ++ codepoints rest := by
  induction bytes with
  | nil => rfl
  | cons byte bytes ih =>
    rw [List.all_cons, Bool.and_eq_true] at h
    rw [List.cons_append, codepoints_of_decode (decode_of_isContinuation h.1 _), List.length_cons,
      List.replicate_succ, List.cons_append, ← ih h.2]
    rfl

theorem all_of_continues {lead : UInt8} {tail : Bytes} (h : continues lead tail = true) :
    tail.all isContinuation = true := by
  cases tail with
  | nil => rfl
  | cons second others =>
    rw [continues, Bool.and_eq_true] at h
    rw [List.all_cons, isContinuation_of_followsLead h.1, h.2, Bool.and_true]

/-- An ill-formed byte string begins with a byte that is replaced. -/
theorem decode_of_illFormed (hsome : b ≠ []) (hnone : ∀ c, ¬ String.utf8EncodeChar c <+: b) :
    decode b = some replacement := by
  cases b with
  | nil => exact absurd rfl hsome
  | cons lead rest =>
    have hnot := mt starts_iff.mpr (not_exists.mpr hnone)
    rw [not_or] at hnot
    exact decode_of_not_starts hnot.1 hnot.2

/-- A byte string that is read as a replacement begins with the bytes of no character, U+FFFD among
    them. -/
theorem illFormed_of_decode (h : decode b = some replacement) (c : Char) :
    ¬ String.utf8EncodeChar c <+: b := by
  rintro ⟨rest, rfl⟩
  rw [decode_encode, Option.some_inj, Codepoint.mk.injEq] at h
  obtain ⟨rfl, hsize⟩ := h
  exact absurd hsize (by decide)

theorem MaximalSubpart.nonempty (h : MaximalSubpart b part) : part ≠ [] := by
  rcases h.coherent.begun with hone | ⟨hsome, -⟩
  · rintro rfl
    exact nomatch hone
  · exact hsome

/-- A scan reads a replacement for each byte of a maximal subpart, and goes on behind it. -/
theorem MaximalSubpart.codepoints_eq (h : MaximalSubpart (part ++ rest) part) :
    codepoints (part ++ rest) = List.replicate part.length replacement ++ codepoints rest := by
  have hsome := h.nonempty
  cases part with
  | nil => exact absurd rfl hsome
  | cons lead tail =>
    have hall : tail.all isContinuation = true := by
      rcases ((coherent_iff h.illFormed).mp h.coherent).2 with hone | ⟨-, hopen⟩
      · rw [List.length_cons, Nat.add_eq_right, List.length_eq_zero_iff] at hone
        rw [hone, List.all_nil]
      · rw [← Bool.not_eq_true, settled_cons, not_or, Bool.not_eq_false] at hopen
        exact all_of_continues hopen.2
    have hfirst := decode_of_illFormed (List.append_ne_nil_of_left_ne_nil hsome rest) h.illFormed
    rw [codepoints_of_decode hfirst, List.length_cons, List.replicate_succ, List.cons_append,
      List.cons_append, ← codepoints_continuations hall]
    rfl

/-- A match shows one replacement for a maximal subpart, and goes on behind it. -/
theorem MaximalSubpart.text_eq (h : MaximalSubpart (part ++ rest) part) :
    text (part ++ rest) = replacement.char :: text rest := by
  have hsome := List.append_ne_nil_of_left_ne_nil h.nonempty rest
  have hpart : part = (part ++ rest).take (subpart (part ++ rest)) :=
    (maximalSubpart_iff hsome h.illFormed).mp h
  have hlength : part.length = subpart (part ++ rest) := by
    have hlength := congrArg List.length hpart
    rwa [List.length_take, Nat.min_eq_left (subpart_le_length _)] at hlength
  have hnone : ∀ c, ¬ String.utf8EncodeChar c <+: part := fun c hc =>
    h.illFormed c (hc.trans (List.prefix_append part rest))
  rw [Utf8.text, dif_neg hsome, ← hlength, List.take_left, List.drop_left, shown,
    decode_of_illFormed h.nonempty hnone]

end

section
variable {b : Bytes} {stretches : List Stretch}

/-- Every byte string is cut into stretches. -/
theorem exists_cutInto (b : Bytes) : ∃ stretches, CutInto b stretches := by
  -- each stretch has a byte
  induction hn : b.length using Nat.strongRecOn generalizing b with
  | ind n ih =>
    by_cases hnil : b = []
    · exact ⟨[], hnil ▸ .nil⟩
    · by_cases hchar : ∃ c, String.utf8EncodeChar c <+: b
      · obtain ⟨c, rest, hsplit⟩ := hchar
        have hlength := congrArg List.length hsplit
        have hsize := c.utf8Size_pos
        rw [List.length_append, String.length_utf8EncodeChar] at hlength
        obtain ⟨stretches, hafter⟩ := ih rest.length (by omega) rest rfl
        exact ⟨_, .whole hsplit.symm hafter⟩
      · rw [not_exists] at hchar
        have hmaximal := (maximalSubpart_iff hnil hchar).mpr rfl
        have hpositive := subpart_pos hnil
        have hlength := List.length_drop (i := subpart b) (l := b)
        have hsome := List.length_pos_iff.mpr hnil
        obtain ⟨stretches, hafter⟩ := ih (b.drop (subpart b)).length (by omega) _ rfl
        exact ⟨_, .broken (List.take_append_drop (subpart b) b).symm hmaximal hafter⟩

/-- There is only one way to cut it. -/
theorem CutInto.eq (h : CutInto b stretches) {others : List Stretch} (h' : CutInto b others) :
    others = stretches := by
  induction h generalizing others with
  | nil =>
    cases h' with
    | nil => rfl
    | whole split _ =>
      have hlength := congrArg List.length split
      rw [List.length_append, String.length_utf8EncodeChar, List.length_nil] at hlength
      exact absurd hlength.symm (Nat.ne_of_gt (Nat.add_pos_left (Char.utf8Size_pos _) _))
    | broken split maximal _ =>
      exact absurd (List.append_eq_nil_iff.mp split.symm).1 maximal.nonempty
  | @whole b rest c stretches split after ih =>
    subst split
    generalize hb : String.utf8EncodeChar c ++ rest = b at h'
    cases h' with
    | nil =>
      have hlength := congrArg List.length hb
      rw [List.length_append, String.length_utf8EncodeChar, List.length_nil] at hlength
      exact absurd hlength (Nat.ne_of_gt (Nat.add_pos_left c.utf8Size_pos _))
    | @whole _ rest' c' _ split' after' =>
      rw [split'] at hb
      have hdecode := congrArg decode hb
      rw [decode_encode, decode_encode] at hdecode
      obtain rfl : c = c' := congrArg Codepoint.char (Option.some.inj hdecode)
      obtain rfl := List.append_cancel_left hb
      rw [ih after']
    | broken split' maximal _ => exact absurd (hb ▸ List.prefix_append _ rest) (maximal.illFormed c)
  | @broken b part rest stretches split maximal after ih =>
    have hsome : b ≠ [] := by
      rw [split]
      exact List.append_ne_nil_of_left_ne_nil maximal.nonempty rest
    cases h' with
    | nil => exact absurd rfl hsome
    | whole split' _ =>
      exact absurd (split' ▸ List.prefix_append _ _) (maximal.illFormed _)
    | @broken _ part' rest' _ split' maximal' after' =>
      have hsame : part' = part :=
        ((maximalSubpart_iff hsome maximal.illFormed).mp maximal').trans
          ((maximalSubpart_iff hsome maximal.illFormed).mp maximal).symm
      rw [hsame, split] at split'
      obtain rfl := List.append_cancel_left split'
      rw [hsame, ih after']

/-- What a scan reads. -/
theorem CutInto.codepoints_eq (h : CutInto b stretches) :
    (codepoints b).map (·.char) = stretches.flatMap Stretch.read := by
  induction h with
  | nil => rw [codepoints_nil]; rfl
  | @whole b rest c stretches split after ih =>
    rw [split, codepoints_of_decode (decode_encode c rest), ← String.length_utf8EncodeChar,
      List.drop_left, List.map_cons, ih]
    rfl
  | broken split maximal after ih =>
    rw [split] at maximal
    rw [split, maximal.codepoints_eq, List.map_append, List.map_replicate, ih]
    rfl

/-- What a match shows. -/
theorem CutInto.text_eq (h : CutInto b stretches) : text b = stretches.map Stretch.shown := by
  induction h with
  | nil => exact text_nil
  | whole split after ih => rw [split, text_encode_append, ih]; rfl
  | broken split maximal after ih =>
    rw [split] at maximal
    rw [split, maximal.text_eq, ih]
    rfl

/-- A subpart that belongs to no character has a byte. -/
theorem CutInto.nonempty (h : CutInto b stretches) {part : Bytes}
    (hpart : .broken part ∈ stretches) : part ≠ [] := by
  induction h with
  | nil => exact nomatch hpart
  | whole split after ih => exact ih ((List.mem_cons.mp hpart).resolve_left nofun)
  | broken split maximal after ih =>
    rcases List.mem_cons.mp hpart with hhere | hlater
    · exact Stretch.broken.inj hhere ▸ maximal.nonempty
    · exact ih hlater

/-- Text that was encoded is cut into the bytes of its characters. -/
theorem cutInto_encode (chars : List Char) : CutInto (encode chars) (chars.map .whole) := by
  induction chars with
  | nil => exact .nil
  | cons c chars ih => exact .whole (encode_cons c chars) ih

/-- Only encoded text is cut without a broken stretch. -/
theorem CutInto.exists_encode (h : CutInto b stretches)
    (hnone : ∀ part, .broken part ∉ stretches) : ∃ chars, b = encode chars := by
  induction h with
  | nil => exact ⟨[], rfl⟩
  | @whole b rest c stretches split after ih =>
    obtain ⟨chars, hchars⟩ := ih fun part hpart => hnone part (List.mem_cons_of_mem _ hpart)
    exact ⟨c :: chars, by rw [split, hchars, encode_cons]⟩
  | broken split maximal after ih => exact absurd List.mem_cons_self (hnone _)

end

/-! ## The two texts -/

namespace Stretch

theorem length_read_pos {stretch : Stretch} (h : ∀ part, stretch = broken part → part ≠ []) :
    0 < stretch.read.length := by
  cases stretch with
  | whole c => exact Nat.one_pos
  | broken part =>
    rw [read, List.length_replicate]
    exact List.length_pos_iff.mpr (h part rfl)

/-- A stretch is read as it shows unless it is a broken one of several bytes. -/
theorem read_eq_iff {stretch : Stretch} (h : ∀ part, stretch = broken part → part ≠ []) :
    stretch.read = [stretch.shown] ↔ ∀ part, stretch = broken part → part.length ≤ 1 := by
  cases stretch with
  | whole c => exact ⟨fun _ _ => nofun, fun _ => rfl⟩
  | broken part =>
    have hpositive := List.length_pos_iff.mpr (h part rfl)
    constructor
    · rintro heq _ ⟨⟩
      have hlength := congrArg List.length heq
      rw [read, List.length_replicate, List.length_singleton] at hlength
      exact Nat.le_of_eq hlength
    · intro hshort
      rw [read, Nat.le_antisymm (hshort part rfl) hpositive]
      rfl

theorem length_le_read {stretches : List Stretch}
    (h : ∀ part, broken part ∈ stretches → part ≠ []) :
    stretches.length ≤ (stretches.flatMap read).length := by
  induction stretches with
  | nil => exact Nat.le_refl 0
  | cons stretch stretches ih =>
    have hfirst := length_read_pos fun part hpart => h part (hpart ▸ List.mem_cons_self)
    have hothers := ih fun part hpart => h part (List.mem_cons_of_mem _ hpart)
    rw [List.flatMap_cons, List.length_append, List.length_cons]
    omega

/-- Stretches are read as they show unless there is a broken one of several bytes. -/
theorem flatMap_read_eq_iff {stretches : List Stretch}
    (h : ∀ part, broken part ∈ stretches → part ≠ []) :
    stretches.flatMap read = stretches.map shown ↔
      ∀ part, broken part ∈ stretches → part.length ≤ 1 := by
  induction stretches with
  | nil => exact ⟨fun _ _ => nofun, fun _ => rfl⟩
  | cons stretch stretches ih =>
    have hfirst : ∀ part, stretch = broken part → part ≠ [] := fun part hpart =>
      h part (hpart ▸ List.mem_cons_self)
    have hothers : ∀ part, broken part ∈ stretches → part ≠ [] := fun part hpart =>
      h part (List.mem_cons_of_mem _ hpart)
    have hsplit : (stretch :: stretches).flatMap read = (stretch :: stretches).map shown ↔
        stretch.read = [stretch.shown] ∧ stretches.flatMap read = stretches.map shown := by
      constructor
      · -- neither part is read as fewer characters than it shows as
        intro heq
        have hlength := congrArg List.length heq
        have hpositive := length_read_pos hfirst
        have hle := length_le_read hothers
        rw [List.flatMap_cons, List.length_append, List.length_map, List.length_cons] at hlength
        rw [List.flatMap_cons, List.map_cons, ← List.singleton_append] at heq
        exact List.append_inj heq (by rw [List.length_singleton]; omega)
      · rintro ⟨hstretch, hstretches⟩
        rw [List.flatMap_cons, hstretch, hstretches]
        rfl
    rw [hsplit, read_eq_iff hfirst, ih hothers]
    constructor
    · rintro ⟨hhere, hlater⟩ part hpart
      exact (List.mem_cons.mp hpart).elim (fun heq => hhere part heq.symm) (hlater part)
    · intro hall
      exact ⟨fun part hpart => hall part (hpart ▸ List.mem_cons_self), fun part hpart =>
        hall part (List.mem_cons_of_mem _ hpart)⟩

end Stretch

/-- The first few code points of a byte string are those of the bytes that they stand for. -/
theorem codepoints_take (b : Bytes) (n : Nat) :
    codepoints (b.take (width ((codepoints b).take n))) = (codepoints b).take n := by
  induction n generalizing b with
  | zero => exact codepoints_nil
  | succ n ih =>
    cases h : decode b with
    | none => rw [decode_eq_none h, List.take_nil, codepoints_nil, List.take_nil]
    | some c =>
      have hsize := (decode_size h).2
      have hfront := decode_take_of_size_le h
        (Nat.le_add_right c.size (width ((codepoints (b.drop c.size)).take n)))
      rw [codepoints_of_decode h, List.take_succ_cons, width_cons, codepoints_of_decode hfront,
        List.drop_take, Nat.add_sub_cancel_left, ih]

/-- A byte string is cut into stretches in one way.  A scan reads each character, and a replacement
    for each byte of a broken stretch; a match shows each character, and one replacement for each
    broken stretch.  The two texts are the same if and only if no broken stretch is longer than one
    byte, as where the bytes are text that was encoded, and then none is broken.  The bytes between
    two places of a stream are read as they were read in it. -/
theorem text_condenses (b : Bytes) (offset : Nat) :
    ∃ stretches, (∀ others, CutInto b others ↔ others = stretches) ∧
      (codepoints b).map (·.char) = stretches.flatMap Stretch.read ∧
      (Match.mk offset b).text = String.ofList (stretches.map Stretch.shown) ∧
      ((Match.mk offset b).text = String.ofList ((codepoints b).map (·.char)) ↔
        ∀ part, Stretch.broken part ∈ stretches → part.length ≤ 1) ∧
      ((∃ chars, b = encode chars) ↔ ∀ part, Stretch.broken part ∉ stretches) ∧
      ∀ stream start count,
        b = (stream.drop (width ((codepoints stream).take start))).take
          (width (((codepoints stream).drop start).take count)) →
        codepoints b = ((codepoints stream).drop start).take count := by
  obtain ⟨stretches, hcut⟩ := exists_cutInto b
  have hread := hcut.codepoints_eq
  have hshown : (Match.mk offset b).text = String.ofList (stretches.map Stretch.shown) :=
    congrArg String.ofList hcut.text_eq
  refine ⟨stretches, fun others => ⟨hcut.eq, fun heq => heq ▸ hcut⟩, hread, hshown, ?_, ?_, ?_⟩
  · rw [hshown, hread, String.ofList_inj, eq_comm]
    exact Stretch.flatMap_read_eq_iff fun part hpart => hcut.nonempty hpart
  · refine ⟨?_, hcut.exists_encode⟩
    rintro ⟨chars, rfl⟩ part hpart
    rw [← hcut.eq (cutInto_encode chars), List.mem_map] at hpart
    obtain ⟨_, -, hnot⟩ := hpart
    exact nomatch hnot
  · rintro stream start count rfl
    rw [← codepoints_drop, codepoints_take]

/-- A sequence that broke off, a character, U+FFFD itself and a stray byte. -/
theorem text_condenses_euro :
    CutInto [0xE2, 0x82, 0x41, 0xEF, 0xBF, 0xBD, 0x80]
        [.broken [0xE2, 0x82], .whole 'A', .whole replacement.char, .broken [0x80]] ∧
      (Match.mk 7 [0xE2, 0x82, 0x41, 0xEF, 0xBF, 0xBD, 0x80]).text ≠
        String.ofList ((codepoints [0xE2, 0x82, 0x41, 0xEF, 0xBF, 0xBD, 0x80]).map (·.char)) := by
  have hcut : CutInto [0xE2, 0x82, 0x41, 0xEF, 0xBF, 0xBD, 0x80]
      [.broken [0xE2, 0x82], .whole 'A', .whole replacement.char, .broken [0x80]] := by
    have hfront : ([0xE2, 0x82, 0x41, 0xEF, 0xBF, 0xBD, 0x80] : Bytes) =
        [0xE2, 0x82] ++ [0x41, 0xEF, 0xBF, 0xBD, 0x80] := rfl
    have hback : ([0x80] : Bytes) = [0x80] ++ [] := rfl
    refine .broken hfront ?_ (.whole rfl (.whole rfl (.broken hback ?_ .nil)))
    · exact (maximalSubpart_iff (by decide) (illFormed_of_decode (by decide))).mpr (by decide)
    · exact (maximalSubpart_iff (by decide) (illFormed_of_decode (by decide))).mpr (by decide)
  obtain ⟨stretches, honly, -, -, hsame, -⟩ :=
    text_condenses [0xE2, 0x82, 0x41, 0xEF, 0xBF, 0xBD, 0x80] 7
  refine ⟨hcut, fun heq => ?_⟩
  rw [← (honly _).mp hcut] at hsame
  exact absurd (hsame.mp heq [0xE2, 0x82] List.mem_cons_self) (by decide)

end StreamScan.Utf8

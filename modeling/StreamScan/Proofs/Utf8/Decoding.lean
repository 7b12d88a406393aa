import StreamScan.Utf8

/-!
# The code points of a byte string

Decoding again and again cuts a byte string into code points.  `codepoints` is the list of them,
and `width` says how many bytes a stretch of it stands for, so that the places between code
points are the widths of its prefixes.

A stream is decoded before all of it is there.  Two facts make that safe:

* **`decode_append_of_settled`** — what is settled stays, whatever follows.
* **`decode_append_of_short`** — an unsettled front that turns out to begin with a broken sequence
  shows that sequence as broken, however many of the bytes after it are there.
-/

namespace StreamScan

namespace Utf8

/-! ## Sequences and their lengths -/

theorem sequenceLength_le (lead : Int) : sequenceLength lead ≤ maxLength := by
  rw [sequenceLength, maxLength]
  split
  · omega
  · split
    · omega
    · split <;> omega

/-- A code point stands for no more bytes than a sequence can have. -/
theorem decode_size_le {b : Bytes} {c : Codepoint} (h : decode b = some c) :
    c.size ≤ maxLength := by
  cases b with
  | nil => simp [decode] at h
  | cons lead rest =>
    have hlength := sequenceLength_le lead.toNat
    simp only [decode, Option.some.injEq] at h
    subst h
    split
    · exact (by decide : 1 ≤ maxLength)
    · split
      · exact (by decide : 1 ≤ maxLength)
      · simp only
        exact hlength

/-- Bytes that stand after a lead byte still do when the last of them are taken away. -/
theorem continues_of_append {lead : UInt8} {tail more : Bytes}
    (h : continues lead (tail ++ more) = true) : continues lead tail = true := by
  cases tail with
  | nil => rfl
  | cons second rest =>
    simp only [List.cons_append, continues, Bool.and_eq_true, List.all_append] at h ⊢
    exact ⟨h.1, h.2.1⟩

/-- Only the lead byte and as many bytes as its sequence has are looked at. -/
theorem decode_congr {lead : UInt8} {rest rest' : Bytes}
    (h : rest.take (sequenceLength lead.toNat - 1) = rest'.take (sequenceLength lead.toNat - 1)) :
    decode (lead :: rest) = decode (lead :: rest') := by
  simp only [decode, h]

/-- A sequence that breaks off, or that has a byte which it cannot have, is replaced. -/
theorem decode_of_broken {lead : UInt8} {rest : Bytes}
    (hlong : 1 < sequenceLength lead.toNat)
    (hbroken : continues lead (rest.take (sequenceLength lead.toNat - 1)) = false ∨
      rest.length < sequenceLength lead.toNat - 1) :
    decode (lead :: rest) = some replacement := by
  have hlead : ¬ lead < 0x80 := by
    intro hascii
    have hsmall : (lead.toNat : Int) < 0xC2 := by
      have : lead.toNat < 0x80 := hascii
      omega
    rw [sequenceLength, if_pos (Or.inl hsmall)] at hlong
    exact absurd hlong (Nat.lt_irrefl 1)
  simp only [decode, if_neg hlead]
  rw [if_pos]
  rcases hbroken with hbyte | hshort
  · exact Or.inr (Or.inr hbyte)
  · refine Or.inr (Or.inl ?_)
    rw [List.length_take]
    omega

/-- A sequence of several bytes is either whole or replaced. -/
theorem decode_size_of_long {lead : UInt8} {rest : Bytes} {c : Codepoint}
    (hsize : c.size < sequenceLength lead.toNat) (h : decode (lead :: rest) = some c) :
    c = replacement ∧ 1 < sequenceLength lead.toNat := by
  have hone := (decode_size h).1
  refine ⟨?_, by omega⟩
  simp only [decode, Option.some.injEq] at h
  by_cases hlead : lead < 0x80
  · have hsmall : (lead.toNat : Int) < 0xC2 := by
      have : lead.toNat < 0x80 := hlead
      omega
    rw [sequenceLength, if_pos (Or.inl hsmall)] at hsize
    omega
  · rw [if_neg hlead] at h
    split at h
    · exact h.symm
    · subst h
      simp only at hsize
      omega

/-! ## Settled bytes -/

theorem settled_cons (lead : UInt8) (rest : Bytes) :
    settled (lead :: rest) = true ↔
      sequenceLength lead.toNat ≤ rest.length + 1 ∨ continues lead rest = false := by
  simp only [settled, Bool.or_eq_true, decide_eq_true_eq, Bool.not_eq_true']

theorem settled_of_length {b : Bytes} (h : maxLength ≤ b.length) : settled b = true := by
  cases b with
  | nil => exact absurd h (by decide)
  | cons lead rest =>
    rw [settled_cons]
    exact Or.inl (Nat.le_trans (sequenceLength_le _) h)

/-- What is settled stays, whatever follows. -/
theorem decode_append_of_settled {b : Bytes} (h : settled b = true) (more : Bytes) :
    decode (b ++ more) = decode b := by
  cases b with
  | nil => exact absurd h (by decide)
  | cons lead rest =>
    rcases (settled_cons lead rest).mp h with hwhole | hbroken
    · rw [List.cons_append]
      refine decode_congr ?_
      rw [List.take_append_of_le_length]
      omega
    · by_cases hlong : sequenceLength lead.toNat ≤ rest.length + 1
      · rw [List.cons_append]
        refine decode_congr ?_
        rw [List.take_append_of_le_length]
        omega
      · have hshort : rest.length < sequenceLength lead.toNat - 1 := by omega
        rw [List.cons_append, decode_of_broken (by omega) (Or.inr hshort),
          decode_of_broken (by omega) (Or.inl ?_)]
        rw [List.take_append, List.take_of_length_le (by omega)]
        cases hcontinues : continues lead
            (rest ++ more.take (sequenceLength lead.toNat - 1 - rest.length)) with
        | false => rfl
        | true => rw [continues_of_append hcontinues] at hbroken; exact hbroken

/-- The first four bytes decide the first code point. -/
theorem decode_take (b : Bytes) : decode (b.take maxLength) = decode b := by
  by_cases hlong : maxLength ≤ b.length
  · have hlength : (b.take maxLength).length = maxLength := by
      rw [List.length_take, Nat.min_eq_left hlong]
    have hsettled := settled_of_length (Nat.le_of_eq hlength.symm)
    have happend := decode_append_of_settled hsettled (b.drop maxLength)
    rw [List.take_append_drop] at happend
    exact happend.symm
  · rw [List.take_of_length_le (by omega)]

/-- If an unsettled front begins with a code point that lies inside it, then that is a byte of a
    broken sequence, and it shows as one however many of the following bytes are there. -/
theorem decode_append_of_short {b more : Bytes} {c : Codepoint} (hopen : settled b = false)
    (h : decode (b ++ more) = some c) (hshort : c.size ≤ b.length) {front : Bytes}
    (hfront : front <+: more) : decode (b ++ front) = some c := by
  obtain ⟨rest', rfl⟩ := hfront
  cases b with
  | nil => exact absurd (decode_size h).1 (by simp only [List.length_nil] at hshort; omega)
  | cons lead rest =>
    have hnot : ¬ settled (lead :: rest) = true := by rw [hopen]; exact Bool.false_ne_true
    rw [settled_cons, not_or] at hnot
    simp only [List.length_cons] at hshort
    obtain ⟨rfl, hlong⟩ := decode_size_of_long (by omega) h
    rw [List.cons_append, ← List.append_assoc] at h
    rw [List.cons_append]
    by_cases hwhole : sequenceLength lead.toNat - 1 ≤ (rest ++ front).length
    · rw [← h]
      exact decode_congr (List.take_append_of_le_length hwhole).symm
    · exact decode_of_broken hlong (Or.inr (by omega))

/-! ## Fronts that break off

A front of a byte string that reaches to the end of the first code point shows it.  One that breaks
off inside shows a byte to be replaced, and it is not settled; what begins inside always is. -/

/-- A front that reaches to the end of the first code point has the same first code point. -/
theorem decode_take_of_size_le {b : Bytes} {c : Codepoint} {n : Nat} (h : decode b = some c)
    (hsize : c.size ≤ n) : decode (b.take n) = some c := by
  have hsplit := List.take_append_drop n b
  by_cases hsettled : settled (b.take n) = true
  · rw [← decode_append_of_settled hsettled (b.drop n), hsplit]
    exact h
  · have hopen : settled (b.take n) = false := Bool.eq_false_iff.mpr hsettled
    have hinside : c.size ≤ (b.take n).length := by
      rw [List.length_take]
      exact Nat.le_min.mpr ⟨hsize, (decode_size h).2⟩
    rw [← hsplit] at h
    rw [← List.append_nil (b.take n)]
    exact decode_append_of_short hopen h hinside List.nil_prefix

/-- A code point of several bytes is a whole sequence. -/
theorem decode_sequence {lead : UInt8} {rest : Bytes} {c : Codepoint}
    (h : decode (lead :: rest) = some c) (hlong : 1 < c.size) :
    c.size = sequenceLength lead.toNat ∧
      continues lead (rest.take (sequenceLength lead.toNat - 1)) = true := by
  simp only [decode, Option.some.injEq] at h
  by_cases hlead : lead < 0x80
  · rw [if_pos hlead] at h
    rw [← h] at hlong
    exact absurd hlong (Nat.lt_irrefl 1)
  · rw [if_neg hlead] at h
    split at h
    · rw [← h] at hlong
      exact absurd hlong (Nat.lt_irrefl 1)
    · rename_i hwhole
      rw [not_or, not_or, Bool.not_eq_false] at hwhole
      have hsize := congrArg Codepoint.size h
      simp only at hsize
      exact ⟨hsize.symm, hwhole.2.2⟩

/-- A front that breaks off inside the first code point is undecided, and its first byte is
    replaced. -/
theorem decode_take_of_lt_size {b : Bytes} {c : Codepoint} {n : Nat} (h : decode b = some c)
    (hpos : 0 < n) (hsize : n < c.size) :
    settled (b.take n) = false ∧ decode (b.take n) = some replacement := by
  have hlong : 1 < c.size := Nat.lt_of_le_of_lt hpos hsize
  cases b with
  | nil => exact nomatch h
  | cons lead rest =>
    obtain ⟨n, rfl⟩ := Nat.exists_eq_add_one_of_ne_zero (Nat.ne_of_gt hpos)
    obtain ⟨hsequence, hcontinues⟩ := decode_sequence h hlong
    have hle := (decode_size h).2
    rw [List.length_cons] at hle
    have hshort : (rest.take n).length < sequenceLength lead.toNat - 1 := by
      rw [List.length_take]
      omega
    rw [List.take_succ_cons]
    constructor
    · rw [← Bool.not_eq_true, settled_cons, not_or, Bool.not_eq_false]
      refine ⟨by omega, ?_⟩
      -- the bytes of the sequence go on behind the front
      have hfront : rest.take (sequenceLength lead.toNat - 1) =
          rest.take n ++ (rest.drop n).take (sequenceLength lead.toNat - 1 - n) := by
        have hsum : n + (sequenceLength lead.toNat - 1 - n) = sequenceLength lead.toNat - 1 := by
          omega
        rw [← List.take_add, hsum]
      rw [hfront] at hcontinues
      exact continues_of_append hcontinues
    · exact decode_of_broken (by omega) (Or.inr hshort)

theorem isContinuation_of_followsLead {lead b : UInt8} (h : followsLead lead b = true) :
    isContinuation b = true := by
  have hrange : ∀ {low high : UInt8}, 0x80 ≤ low → high ≤ 0xBF →
      (decide (low ≤ b) && decide (b ≤ high)) = true → isContinuation b = true := by
    intro low high hlow hhigh hb
    rw [Bool.and_eq_true, decide_eq_true_eq, decide_eq_true_eq] at hb
    rw [isContinuation, Bool.and_eq_true, decide_eq_true_eq, decide_eq_true_eq]
    exact ⟨UInt8.le_trans hlow hb.1, UInt8.le_trans hb.2 hhigh⟩
  rw [followsLead] at h
  split at h
  · exact hrange (by decide) (by decide) h
  · split at h
    · exact hrange (by decide) (by decide) h
    · split at h
      · exact hrange (by decide) (by decide) h
      · split at h
        · exact hrange (by decide) (by decide) h
        · exact h

/-- No sequence begins with a byte that continues one, so such a byte is settled by itself. -/
theorem settled_of_isContinuation {b : UInt8} (h : isContinuation b = true) (rest : Bytes) :
    settled (b :: rest) = true := by
  have hlead : (b.toNat : Int) < 0xC2 := by
    rw [isContinuation, Bool.and_eq_true, decide_eq_true_eq, decide_eq_true_eq] at h
    have hle : b.toNat ≤ 0xBF := h.2
    omega
  rw [settled_cons, sequenceLength, if_pos (Or.inl hlead)]
  exact Or.inl (Nat.le_add_left 1 _)

/-- What begins inside a code point is settled. -/
theorem settled_inside {b front : Bytes} {c : Codepoint} {i : Nat} (h : decode b = some c)
    (hpos : 0 < i) (hi : i < c.size) (hnonempty : front ≠ []) (hfront : front <+: b.drop i) :
    settled front = true := by
  cases b with
  | nil => exact nomatch h
  | cons lead rest =>
    obtain ⟨i, rfl⟩ := Nat.exists_eq_add_one_of_ne_zero (Nat.ne_of_gt hpos)
    obtain ⟨hsequence, hcontinues⟩ := decode_sequence h (Nat.lt_of_le_of_lt hpos hi)
    have hle := (decode_size h).2
    rw [List.length_cons] at hle
    have hinside : i < (rest.take (sequenceLength lead.toNat - 1)).length := by
      rw [List.length_take]
      omega
    have hbyte : isContinuation (rest.take (sequenceLength lead.toNat - 1))[i] = true := by
      generalize rest.take (sequenceLength lead.toNat - 1) = tail at hcontinues hinside
      cases tail with
      | nil => exact absurd hinside (Nat.not_lt_zero i)
      | cons second others =>
        rw [continues, Bool.and_eq_true, List.all_eq_true] at hcontinues
        cases i with
        | zero => exact isContinuation_of_followsLead hcontinues.1
        | succ i => exact hcontinues.2 _ (List.getElem_mem _)
    rw [List.getElem_take] at hbyte
    cases front with
    | nil => exact absurd rfl hnonempty
    | cons first others =>
      obtain ⟨more, hmore⟩ := hfront
      rw [List.drop_succ_cons, List.drop_eq_getElem_cons (by omega)] at hmore
      obtain ⟨rfl, -⟩ := List.cons.inj hmore
      exact settled_of_isContinuation hbyte others

/-! ## All code points -/

/-- The code points of a byte string, one after the other. -/
def codepoints (b : Bytes) : List Codepoint :=
  match _h : decode b with
  | none => []
  | some c => c :: codepoints (b.drop c.size)
termination_by b.length
decreasing_by
  have := decode_size _h
  rw [List.length_drop]
  omega

theorem codepoints_of_decode {b : Bytes} {c : Codepoint} (h : decode b = some c) :
    codepoints b = c :: codepoints (b.drop c.size) := by
  rw [codepoints]
  split
  · rename_i hnone
    rw [hnone] at h
    exact nomatch h
  · rename_i d hsome
    rw [hsome] at h
    rw [Option.some.inj h]

theorem decode_eq_none {b : Bytes} (h : decode b = none) : b = [] := by
  by_cases hnil : b = []
  · exact hnil
  · have hsome := decode_isSome hnil
    rw [h] at hsome
    exact nomatch hsome

theorem codepoints_nil : codepoints [] = [] := by
  rw [codepoints]
  rfl

end Utf8

/-! ## Widths -/

/-- How many bytes a list of code points stands for. -/
def width : List Codepoint → Nat
  | [] => 0
  | c :: w => c.size + width w

@[simp] theorem width_nil : width [] = 0 := rfl

@[simp] theorem width_cons (c : Codepoint) (w : List Codepoint) :
    width (c :: w) = c.size + width w := rfl

@[simp] theorem width_append (v w : List Codepoint) : width (v ++ w) = width v + width w := by
  induction v with
  | nil => rw [List.nil_append, width_nil, Nat.zero_add]
  | cons c v ih => rw [List.cons_append, width_cons, width_cons, ih, Nat.add_assoc]

theorem width_take_add (w : List Codepoint) (m n : Nat) :
    width (w.take (m + n)) = width (w.take m) + width ((w.drop m).take n) := by
  rw [List.take_add, width_append]

theorem width_take_le {w : List Codepoint} {m n : Nat} (h : m ≤ n) :
    width (w.take m) ≤ width (w.take n) := by
  obtain ⟨k, rfl⟩ := Nat.exists_eq_add_of_le h
  rw [width_take_add]
  exact Nat.le_add_right _ _

theorem width_take_le_width (w : List Codepoint) (n : Nat) : width (w.take n) ≤ width w := by
  have hsplit := congrArg width (List.take_append_drop n w)
  rw [width_append] at hsplit
  omega

theorem width_take_succ {w : List Codepoint} {n : Nat} (h : n < w.length) :
    width (w.take (n + 1)) = width (w.take n) + w[n].size := by
  rw [List.take_succ_eq_append_getElem h, width_append]
  rfl

/-- Each code point that stands for a byte makes a text wider. -/
theorem width_take_lt {w : List Codepoint} (hsizes : ∀ c ∈ w, 1 ≤ c.size) {m n : Nat} (h : m < n)
    (hn : n ≤ w.length) : width (w.take m) < width (w.take n) := by
  have hsucc := width_take_succ (Nat.lt_of_lt_of_le h hn)
  have hsize := hsizes w[m] (List.getElem_mem _)
  have hle : width (w.take (m + 1)) ≤ width (w.take n) := width_take_le h
  omega

/-- A text is no wider than its length times the length of the longest sequence. -/
theorem width_le {w : List Codepoint} (hsizes : ∀ c ∈ w, c.size ≤ Utf8.maxLength) :
    width w ≤ Utf8.maxLength * w.length := by
  induction w with
  | nil => exact Nat.zero_le _
  | cons c w ih =>
    have hsize := hsizes c List.mem_cons_self
    have hrest := ih fun d hd => hsizes d (List.mem_cons_of_mem c hd)
    rw [width_cons, List.length_cons, Nat.mul_add, Nat.mul_one]
    omega

/-- A text of code points of one byte is as wide as it is long. -/
theorem width_eq_length {w : List Codepoint} (hsizes : ∀ c ∈ w, c.size = 1) :
    width w = w.length := by
  induction w with
  | nil => rfl
  | cons c w ih =>
    rw [width_cons, List.length_cons, hsizes c List.mem_cons_self,
      ih fun d hd => hsizes d (List.mem_cons_of_mem c hd), Nat.add_comm]

/-- The same of the front of a text. -/
theorem width_take_eq {w : List Codepoint} (hsizes : ∀ c ∈ w, c.size = 1) {n : Nat}
    (hn : n ≤ w.length) : width (w.take n) = n := by
  rw [width_eq_length fun c hc => hsizes c (List.mem_of_mem_take hc), List.length_take,
    Nat.min_eq_left hn]

/-- So many code points more make a text only so much wider. -/
theorem width_take_add_le {w : List Codepoint} (hsizes : ∀ c ∈ w, c.size ≤ Utf8.maxLength)
    (m n : Nat) : width (w.take (m + n)) ≤ width (w.take m) + Utf8.maxLength * n := by
  have hmore := width_le (w := (w.drop m).take n) fun c hc =>
    hsizes c (List.mem_of_mem_drop (List.mem_of_mem_take hc))
  have hlength : ((w.drop m).take n).length ≤ n := by
    rw [List.length_take]
    exact Nat.min_le_left _ _
  have hmul := Nat.mul_le_mul_left Utf8.maxLength hlength
  rw [width_take_add]
  omega

namespace Utf8

/-- The code points stand for all bytes and no more. -/
theorem width_codepoints (b : Bytes) : width (codepoints b) = b.length := by
  fun_induction codepoints b with
  | case1 b hnone => rw [decode_eq_none hnone]; rfl
  | case2 b c hsome ih =>
    have hsize := decode_size hsome
    rw [width_cons, ih, List.length_drop]
    omega

/-- Decoding on from a place between two code points gives the rest of them. -/
theorem codepoints_drop (b : Bytes) (n : Nat) :
    codepoints (b.drop (width ((codepoints b).take n))) = (codepoints b).drop n := by
  induction n generalizing b with
  | zero => rfl
  | succ n ih =>
    cases h : decode b with
    | none => rw [decode_eq_none h]; simp [codepoints_nil]
    | some c =>
      rw [codepoints_of_decode h, List.take_succ_cons, width_cons, ← List.drop_drop, ih,
        List.drop_succ_cons]

/-- The code point with so many before it is decoded behind them. -/
theorem getElem?_codepoints (b : Bytes) (n : Nat) :
    (codepoints b)[n]? = decode (b.drop (width ((codepoints b).take n))) := by
  have hdrop := codepoints_drop b n
  rw [← Nat.add_zero n, ← List.getElem?_drop, Nat.add_zero, ← hdrop]
  cases hcase : decode (b.drop (width ((codepoints b).take n))) with
  | none => rw [decode_eq_none hcase, codepoints_nil]; rfl
  | some c => rw [codepoints_of_decode hcase]; rfl

/-- Behind its first code point a byte string has the other ones. -/
theorem codepoints_drop_first (b : Bytes) :
    codepoints (b.drop ((decode b).elim 0 (·.size))) = (codepoints b).tail := by
  cases hcase : decode b with
  | none =>
    rw [decode_eq_none hcase, List.drop_nil, codepoints_nil]
    rfl
  | some point =>
    rw [codepoints_of_decode hcase]
    rfl

theorem decode_eq_getElem? (b : Bytes) : decode b = (codepoints b)[0]? := by
  rw [getElem?_codepoints, List.take_zero, width_nil, List.drop_zero]

/-- The first few code points are the first one and some of the others. -/
theorem width_take_codepoints_succ (b : Bytes) (n : Nat) :
    width ((codepoints b).take (n + 1)) =
      (decode b).elim 0 (·.size) + width ((codepoints b).tail.take n) := by
  cases hcase : decode b with
  | none => rw [decode_eq_none hcase, codepoints_nil, List.tail_nil, List.take_nil, List.take_nil,
      width_nil, Option.elim_none]
  | some point =>
    rw [codepoints_of_decode hcase]
    rfl

/-! ### Places between code points -/

/-- A place between two code points of a byte string, or at one of its ends. -/
def Place (b : Bytes) (p : Nat) : Prop := ∃ n, p = width ((codepoints b).take n)

theorem place_zero (b : Bytes) : Place b 0 := ⟨0, rfl⟩

theorem Place.le {b : Bytes} {p : Nat} (h : Place b p) : p ≤ b.length := by
  obtain ⟨n, rfl⟩ := h
  rw [← width_codepoints b]
  exact width_take_le_width _ n

/-- Counting on from a place. -/
theorem Place.add {b : Bytes} {p : Nat} (h : Place b p) (n : Nat) :
    Place b (p + width ((codepoints (b.drop p)).take n)) := by
  obtain ⟨m, rfl⟩ := h
  exact ⟨m + n, by rw [codepoints_drop, width_take_add]⟩

/-- The place after the code point that begins at a place. -/
theorem Place.next {b : Bytes} {p : Nat} (h : Place b p) {c : Codepoint}
    (hdecode : decode (b.drop p) = some c) : Place b (p + c.size) := by
  have hone := h.add 1
  rw [codepoints_of_decode hdecode] at hone
  exact hone

/-- There is no place inside a code point. -/
theorem Place.next_le {b : Bytes} {p q : Nat} (hp : Place b p) (hq : Place b q) (h : p < q)
    {c : Codepoint} (hdecode : decode (b.drop p) = some c) : p + c.size ≤ q := by
  obtain ⟨m, rfl⟩ := hp
  obtain ⟨n, rfl⟩ := hq
  have hlt : m < n := Nat.lt_of_not_le fun hle => Nat.not_lt.mpr (width_take_le hle) h
  have hsucc := width_take_add (codepoints b) m 1
  rw [← codepoints_drop, codepoints_of_decode hdecode] at hsucc
  have hle : width ((codepoints b).take (m + 1)) ≤ width ((codepoints b).take n) :=
    width_take_le hlt
  rw [List.take_succ_cons, List.take_zero, width_cons, width_nil] at hsucc
  omega

/-- Every code point stands for one to four bytes. -/
theorem size_of_mem_codepoints {b : Bytes} {c : Codepoint} (h : c ∈ codepoints b) :
    1 ≤ c.size ∧ c.size ≤ maxLength := by
  fun_induction codepoints b with
  | case1 b hnone => exact nomatch h
  | case2 b d hsome ih =>
    rcases List.mem_cons.mp h with rfl | hmem
    · exact ⟨(decode_size hsome).1, decode_size_le hsome⟩
    · exact ih hmem

theorem sizes_of_codepoints {b : Bytes} {w : List Codepoint} (h : codepoints b = w) :
    ∀ c ∈ w, 1 ≤ c.size ∧ c.size ≤ maxLength := by
  intro c hc
  rw [← h] at hc
  exact size_of_mem_codepoints hc

/-! ### ASCII -/

theorem settled_ascii {b : UInt8} (h : b < 0x80) : settled [b] = true := by
  have hlead : (b.toNat : Int) < 0xC2 := by
    have hlt : b.toNat < 0x80 := h
    omega
  have hone : sequenceLength b.toNat = 1 := by
    rw [sequenceLength, if_pos (Or.inl hlead)]
  rw [settled, hone]
  rfl

/-- In a stream of ASCII every code point is one byte. -/
theorem size_of_ascii {b : Bytes} (hascii : ∀ byte ∈ b, byte < 0x80) {c : Codepoint}
    (h : c ∈ codepoints b) : c.size = 1 := by
  fun_induction codepoints b with
  | case1 b hnone => exact nomatch h
  | case2 b d hsome ih =>
    rcases List.mem_cons.mp h with rfl | hmem
    · cases b with
      | nil => exact nomatch hsome
      | cons lead rest =>
        have hlead := hascii lead List.mem_cons_self
        rw [decode] at hsome
        simp only [if_pos hlead, Option.some.injEq] at hsome
        rw [← hsome]
    · exact ih (fun byte hbyte => hascii byte (List.mem_of_mem_drop hbyte)) hmem

end Utf8

end StreamScan

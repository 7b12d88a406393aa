import StreamScan.Bytes

/-!
# UTF-8 — decoding one code point at a time

A scan decodes its stream one code point at a time and must never stall.  So every byte string
that is not empty has a first code point: if its bytes are not well formed, that is the
replacement character U+FFFD, and it stands for one byte.

A stream also arrives in pieces, and the first bytes of a sequence may be all there is so far.
`settled` tells whether what has arrived decides the first code point already.

* **`sequenceLength`** — how long a sequence with a given lead byte is.
* **`settled`** — nothing that follows can change the first code point.
* **`decode`** — the first code point of a byte string, none if there are no bytes.
-/

namespace StreamScan

/-- A decoded character together with the number of bytes it stands for. -/
structure Codepoint where
  char : Char
  size : Nat
deriving DecidableEq, Repr, Inhabited

namespace Utf8

/-- The greatest number of bytes in a sequence. -/
def maxLength : Nat := 4

/-- The character that stands for a byte which belongs to no sequence. -/
def replacement : Codepoint := ⟨'\uFFFD', 1⟩

/-- The length of a sequence with the given lead byte: one for ASCII and for any number that
    can lead no sequence. -/
def sequenceLength (lead : Int) : Nat :=
  if lead < 0xC2 ∨ 0xF4 < lead then 1
  else if lead < 0xE0 then 2
  else if lead < 0xF0 then 3
  else 4

/-- Whether a byte can stand third or fourth in a sequence. -/
def isContinuation (b : UInt8) : Bool := 0x80 ≤ b && b ≤ 0xBF

/-- Whether a byte can stand second in a sequence with the given lead byte.  Four leads admit
    fewer: the others would spell overlong forms, surrogates or numbers above U+10FFFF. -/
def followsLead (lead b : UInt8) : Bool :=
  if lead = 0xE0 then 0xA0 ≤ b && b ≤ 0xBF
  else if lead = 0xED then 0x80 ≤ b && b ≤ 0x9F
  else if lead = 0xF0 then 0x90 ≤ b && b ≤ 0xBF
  else if lead = 0xF4 then 0x80 ≤ b && b ≤ 0x8F
  else isContinuation b

/-- Whether bytes can stand after a lead byte, as far as they go. -/
def continues (lead : UInt8) : Bytes → Bool
  | [] => true
  | second :: rest => followsLead lead second && rest.all isContinuation

/-- Whether the bytes so far decide the first code point: the sequence is complete, or a byte
    stands where the sequence cannot have it. -/
def settled : Bytes → Bool
  | [] => false
  | lead :: rest => sequenceLength lead.toNat ≤ rest.length + 1 || !continues lead rest

/-- The number that a sequence spells: the low bits of the lead byte, then six bits of every
    byte after it. -/
def scalar (lead : UInt8) (tail : Bytes) : Nat :=
  tail.foldl (fun n b => n * 64 + b.toNat % 64) (lead.toNat % Nat.pow 2 (6 - tail.length))

/-- The first code point of a byte string. -/
def decode : Bytes → Option Codepoint
  | [] => none
  | lead :: rest => some <|
    let size := sequenceLength lead.toNat
    let tail := rest.take (size - 1)
    if lead < 0x80 then ⟨Char.ofNat lead.toNat, 1⟩
    else if size = 1 ∨ tail.length < size - 1 ∨ continues lead tail = false then replacement
    else ⟨Char.ofNat (scalar lead tail), size⟩

theorem decode_nil : decode [] = none := rfl

theorem decode_isSome {b : Bytes} (h : b ≠ []) : (decode b).isSome := by
  cases b with
  | nil => exact absurd rfl h
  | cons lead rest => rfl

theorem one_le_sequenceLength (lead : Int) : 1 ≤ sequenceLength lead := by
  rw [sequenceLength]
  split <;> (try split) <;> (try split) <;> omega

/-- A code point stands for at least one byte, and for no more than there are. -/
theorem decode_size {b : Bytes} {c : Codepoint} (h : decode b = some c) :
    1 ≤ c.size ∧ c.size ≤ b.length := by
  cases b with
  | nil => simp [decode] at h
  | cons lead rest =>
    have hone := one_le_sequenceLength lead.toNat
    simp only [decode, Option.some.injEq] at h
    subst h
    split
    · simp
    · split
      · simp [replacement]
      · rename_i hlead htail
        simp only [List.length_take, not_or, Nat.not_lt] at htail
        simp only [List.length_cons]
        omega

end Utf8

end StreamScan

import StreamScan.Utf8

/-!
# Text of a byte string — one replacement for each broken sequence

The bytes of a match are shown as text by another policy than the one a scan decodes with.  A
sequence that breaks off is replaced as a whole: its *maximal subpart*, the longest stretch of
bytes that could have gone on to form a sequence, gives one U+FFFD, where a scan sees one for
every byte.

* **`subpart`** — how many bytes at the front belong together.
* **`text`** — the characters of a byte string under this policy.
-/

namespace StreamScan.Utf8

/-- How many of the bytes after a lead byte belong to its sequence, at most `more` of them, if
    each has to be a continuation byte. -/
def continuing : Nat → Bytes → Nat
  | more + 1, b :: rest => if isContinuation b then continuing more rest + 1 else 0
  | _, _ => 0

/-- How many bytes at the front of a byte string belong together: a whole sequence, the part of
    one that was begun, or a single byte that begins none. -/
def subpart : Bytes → Nat
  | [] => 0
  | [_] => 1
  | lead :: second :: rest =>
    let size := sequenceLength lead.toNat
    if size ≤ 1 then 1
    else if followsLead lead second then continuing (size - 2) rest + 2
    else 1

theorem subpart_pos {b : Bytes} (h : b ≠ []) : 0 < subpart b := by
  match b with
  | [] => exact absurd rfl h
  | [_] => simp [subpart]
  | _ :: _ :: _ => simp only [subpart]; split <;> (try split) <;> omega

/-- The character that a stretch of bytes which belong together shows as: its code point if it
    is a whole sequence, the replacement character if it broke off. -/
def shown (part : Bytes) : Char :=
  match decode part with
  | some c => c.char
  | none => replacement.char

/-- The characters of a byte string, with one replacement for each maximal subpart. -/
def text (b : Bytes) : List Char :=
  if _h : b = [] then [] else
    shown (b.take (subpart b)) :: text (b.drop (subpart b))
termination_by b.length
decreasing_by
  have := subpart_pos _h
  have : 0 < b.length := List.length_pos_iff.2 _h
  simp only [List.length_drop]
  omega

theorem text_nil : text [] = [] := by
  rw [text]; simp

end StreamScan.Utf8

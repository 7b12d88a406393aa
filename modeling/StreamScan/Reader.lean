import StreamScan.Failure
import StreamScan.Utf8

/-!
# Readers — whatever delivers code points

A search sees its stream through one operation: deliver the next code point, none at the end, or
fail.  A cursor is a reader, and so is a plain list of code points.

* **`CodepointReader`** — a state that delivers code points.
* **`FiniteReader`** — a reader that delivers only so many code points more, so that a search
  which reads on and on comes to an end.
-/

namespace StreamScan

/-- A state that delivers code points. -/
class CodepointReader (ρ : Type) where
  next : ρ → Except Failure (Option Codepoint) × ρ

/-- A reader that delivers only so many code points more. -/
class FiniteReader (ρ : Type) extends CodepointReader ρ where
  /-- A bound on the code points that are still to come. -/
  remaining : ρ → Nat
  remaining_next : ∀ {r r' : ρ} {c : Codepoint},
    CodepointReader.next r = (.ok (some c), r') → remaining r' < remaining r

/-- The code points of a text with the lengths of their encodings. -/
def codepointsOf (text : String) : List Codepoint :=
  text.toList.map fun c => ⟨c, c.utf8Size⟩

/-- A list of code points delivers its members in order. -/
instance : FiniteReader (List Codepoint) where
  next
    | [] => (.ok none, [])
    | c :: rest => (.ok (some c), rest)
  remaining := List.length
  remaining_next {r r' c} h := by
    cases r with
    | nil => simp at h
    | cons a rest =>
      obtain ⟨-, rfl⟩ := Prod.mk.inj h
      exact Nat.lt_succ_self _

end StreamScan

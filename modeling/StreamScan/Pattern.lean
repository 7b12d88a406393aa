import StreamScan.Failure
import StreamScan.Matcher
import StreamScan.Pattern.Assembly
import StreamScan.Pattern.Forward

/-!
# Patterns — written, compiled, matched

A pattern is written as a text and compiled to an expression with its flags.  Flags that the text
sets itself hold for all of it, wherever they stand.  A compiled pattern is a matcher.

* **`Pattern.compile`** — the pattern that a text spells.
* **`Pattern.attempt`** — what comes of matching at one place.
* **`Pattern.search`** — the first place with a match.
* **`search_eq`** — the same place is found by trying every place up to the end of the text, the
  end included.
-/

namespace StreamScan

/-- A compiled pattern. -/
structure Pattern where
  expr : Pattern.Expr
  flags : Pattern.Flags
deriving Repr

namespace Pattern

/-- The tokens of a written pattern, and its flags.  If the text asks for layout to be ignored, it
    is read once more in that way. -/
def tokens? (text : List Char) (flags : Flags) : Option (List Token × Flags) := do
  let tokens ← Token.ofText? flags.verbose text
  let all := flags.union (switches tokens)
  if all.verbose && !flags.verbose then
    let tokens ← Token.ofText? true text
    some (tokens, all.union (switches tokens))
  else some (tokens, all)

/-- The pattern that a text spells. -/
def compile (text : String) (flags : Flags) : Except Failure Pattern :=
  let compiled := do
    let (tokens, flags) ← tokens? text.toList flags
    some ⟨← Expr.ofTokens? tokens, flags⟩
  match compiled with
  | some pattern => .ok pattern
  | none => .error .badPattern

/-- Matches at one place of a text that may grow or may not. -/
def runAt (p : Pattern) (text : Array Char) (mayGrow : Bool) (index : Nat) : Outcome :=
  p.expr.run ⟨text, p.flags, mayGrow⟩ (.start index) .matched

/-- The attempt at one place: a match in the text as it is, or else one that needs more text. -/
def attempt (p : Pattern) (text : Array Char) (index : Nat) : Attempt :=
  match p.runAt text false index with
  | .matched s => .matched s.index
  | _ =>
    match p.runAt text true index with
    | .refused => .failed
    | _ => .unfinished

/-- The first of so many places from `index` on at which there is a match. -/
def searchFrom (p : Pattern) (text : Array Char) : Nat → Nat → Option Span
  | 0, _ => none
  | places + 1, index =>
    match p.runAt text false index with
    | .matched s => some ⟨index, s.index⟩
    | _ => p.searchFrom text places (index + 1)

/-- The first match at `index` or after it.  Places that can begin no match are left out. -/
def search (p : Pattern) (text : Array Char) (index : Nat) : Option Span :=
  p.searchFrom text (p.expr.places ⟨text, p.flags, false⟩ - index) index

/-- A search that tries more places tries the further ones if it found nothing before. -/
theorem searchFrom_add (p : Pattern) (text : Array Char) (m n index : Nat) :
    p.searchFrom text (m + n) index =
      (p.searchFrom text m index).or (p.searchFrom text n (index + m)) := by
  induction m generalizing index with
  | zero => rw [Nat.zero_add, Nat.add_zero, searchFrom, Option.none_or]
  | succ m ih =>
    rw [Nat.add_right_comm, searchFrom, searchFrom]
    cases p.runAt text false index with
    | matched s => rfl
    | refused => simpa only [Nat.add_right_comm, Nat.add_assoc] using ih (index + 1)
    | exhausted => simpa only [Nat.add_right_comm, Nat.add_assoc] using ih (index + 1)

theorem searchFrom_of_refused {p : Pattern} {text : Array Char} {n index : Nat}
    (h : ∀ i, index ≤ i → i < index + n → p.runAt text false i = .refused) :
    p.searchFrom text n index = none := by
  induction n generalizing index with
  | zero => rfl
  | succ n ih =>
    rw [searchFrom, h index (Nat.le_refl _) (by omega)]
    exact ih fun i hle hlt => h i (by omega) (by omega)

/-- Trying every place up to the end of the text finds the same match. -/
theorem search_eq (p : Pattern) (text : Array Char) (index : Nat) :
    p.search text index = p.searchFrom text (text.size + 1 - index) index := by
  have hplaces := places_le p.expr ⟨text, p.flags, false⟩
  have hsize : text.size + 1 - index =
      (p.expr.places ⟨text, p.flags, false⟩ - index) +
        (text.size + 1 - max index (p.expr.places ⟨text, p.flags, false⟩)) := by
    simp only at hplaces
    omega
  rw [hsize, searchFrom_add, search]
  rw [searchFrom_of_refused (n := text.size + 1 - _), Option.or_none]
  intro i hle hlt
  exact run_of_places_le rfl (by simp only [State.start]; omega) (by simp only [State.start]; omega)

/-- A compiled pattern as a matcher. -/
def matcher (p : Pattern) : Matcher := ⟨p.search, p.attempt⟩

end Pattern

end StreamScan

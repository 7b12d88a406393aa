import StreamScan.Pattern.Expr

/-!
# Search — matching an expression by backtracking

An expression is matched against a text from a place on, and what remains to be matched after it
is a function from states to outcomes.  Alternatives are tried in order, and a choice is taken
back when what comes after it fails: the first way through wins.

A text may be only the front of a longer one.  If it may grow, a match that needs a character at
its end is neither made nor refused: the outcome is *exhausted*, and no other way is tried.

* **`Outcome`** — refused, exhausted, or the state after the match.
* **`Expr.run`** — the matching itself, by recursion on the expression.  Repetitions are bounded by
  the length of the text, since each that is not required has to take a character.
* **`Expr.places`** — a bound on the places where a match can begin, which spares a search most of
  the attempts that cannot succeed.
-/

namespace StreamScan.Pattern

/-- How far a match has come: the index of the next character, and what the groups took, the
    latest first. -/
structure State where
  index : Nat
  captures : List (Nat × Nat × Nat)
deriving DecidableEq, Repr

namespace State

/-- A state in which no group has taken anything. -/
def start (index : Nat) : State := ⟨index, []⟩

/-- Remembers what a group took that began at index `first` and ends here. -/
def record (s : State) (group first : Nat) : State :=
  { s with captures := (group, first, s.index) :: s.captures }

/-- The stretch that a group took last. -/
def lastTaken? (s : State) (group : Nat) : Option (Nat × Nat) := s.captures.lookup group

end State

/-- What comes of matching. -/
inductive Outcome where
  | refused
  /-- The text ended where a character was needed, and it may grow. -/
  | exhausted
  | matched (state : State)
deriving DecidableEq, Repr

namespace Outcome

/-- The first outcome, or the second if the first was refused. -/
def orElse (first : Outcome) (second : Unit → Outcome) : Outcome :=
  match first with
  | refused => second ()
  | other => other

/-- Goes on from the state that was reached, without a way back. -/
def andThen (first : Outcome) (next : State → Outcome) : Outcome :=
  match first with
  | matched state => next state
  | other => other

end Outcome

/-- What remains to be matched. -/
abbrev Rest := State → Outcome

/-- A way to match something and what comes after it. -/
abbrev Way := State → Rest → Outcome

/-- A text to match against. -/
structure Subject where
  text : Array Char
  flags : Flags
  /-- The text may be only the front of a longer one. -/
  mayGrow : Bool

namespace Subject

/-- Matches one character. -/
def take (x : Subject) (what : Single) : Way := fun s rest =>
  match x.text[s.index]? with
  | some c => if x.flags.accepts c what then rest { s with index := s.index + 1 } else .refused
  | none => if x.mayGrow then .exhausted else .refused

/-- Matches given characters in a row. -/
def takeAll (x : Subject) : List Char → Way
  | [], s, rest => rest s
  | c :: cs, s, rest => x.take (.code c.toNat) s fun s => x.takeAll cs s rest

/-- Whether words have the character at an index. -/
def wordAt (x : Subject) (index : Nat) : Bool :=
  match x.text[index]? with
  | some c => x.flags.inCategory c .word
  | none => false

/-- Whether a word begins or ends just before an index. -/
def boundaryAt (x : Subject) (index : Nat) : Bool :=
  (0 < index && x.wordAt (index - 1)) != x.wordAt index

/-- Whether a condition holds just before an index. -/
def holds (x : Subject) (index : Nat) : Anchor → Bool
  | .caret => index = 0 || (x.flags.multiLine && x.text[index - 1]? = some '\n')
  | .dollar =>
    index = x.text.size || (x.text[index]? = some '\n'
      && (x.flags.multiLine || index + 1 = x.text.size))
  | .textStart => index = 0
  | .textEnd => index = x.text.size
  | .boundary => x.boundaryAt index
  | .notBoundary => !x.boundaryAt index

/-- The indices at which something can begin that ends at the given index and is `width?`
    characters wide. -/
def beginnings (index : Nat) : Option Nat → List Nat
  | some width => if width ≤ index then [index - width] else []
  | none => (List.range (index + 1)).reverse

end Subject

namespace Way

/-- Matches exactly so many times in a row. -/
def times (way : Way) : Nat → Way
  | 0, s, rest => rest s
  | n + 1, s, rest => way s fun s => times way n s rest

/-- Matches at most so many times more, as often as it can be.  Each time has to take a
    character. -/
def greedy (way : Way) : Nat → Way
  | 0, s, rest => rest s
  | n + 1, s, rest =>
    (way s fun t => if t.index = s.index then .refused else greedy way n t rest).orElse
      fun _ => rest s

/-- Matches at most so many times more, as seldom as can be.  Each time has to take a
    character. -/
def reluctant (way : Way) : Nat → Way
  | 0, s, rest => rest s
  | n + 1, s, rest =>
    (rest s).orElse fun _ =>
      way s fun t => if t.index = s.index then .refused else reluctant way n t rest

/-- Commits to the first match. -/
def commit (way : Way) : Way := fun s rest => (way s .matched).andThen rest

/-- Matches as often as a quantifier says, in a text of the given size. -/
def repeated (way : Way) (size : Nat) (q : Quantifier) : Way := fun s rest =>
  let more (index : Nat) := q.most.elim (size + 1 - index) (· - q.least)
  match q.mode with
  | .greedy => way.times q.least s fun s => way.greedy (more s.index) s rest
  | .reluctant => way.times q.least s fun s => way.reluctant (more s.index) s rest
  | .possessive =>
    (way.times q.least s fun s => way.greedy (more s.index) s .matched).andThen rest

/-- Goes on from the same index if there is a match, or if there is none. -/
def look (way : Way) (negative : Bool) : Way := fun s rest =>
  match way s .matched, negative with
  | .exhausted, _ => .exhausted
  | .matched t, false => rest { t with index := s.index }
  | .refused, true => rest s
  | _, _ => .refused

/-- Matches what begins at one of the given indices and ends here; the first that does wins. -/
def endingHere (way : Way) : List Nat → Way
  | [], _, _ => .refused
  | first :: more, s, rest =>
    (way { s with index := first } fun t =>
      if t.index = s.index then rest t else .refused).orElse
        fun _ => endingHere way more s rest

end Way

/-- Matches an expression and what comes after it. -/
def Expr.run : Expr → Subject → Way
  | .empty, _ => fun s rest => rest s
  | .single what, x => x.take what
  | .anchor condition, x => fun s rest => if x.holds s.index condition then rest s else .refused
  | .seq first second, x => fun s rest => first.run x s fun s => second.run x s rest
  | .alt first second, x => fun s rest => (first.run x s rest).orElse fun _ => second.run x s rest
  | .capture group body, x => fun s rest => body.run x s fun t => rest (t.record group s.index)
  | .again group, x => fun s rest =>
    match s.lastTaken? group with
    | some (first, stop) => x.takeAll (x.text.extract first stop).toList s rest
    | none => .refused
  | .repeated q body, x => (body.run x).repeated x.text.size q
  | .atomic body, x => (body.run x).commit
  | .ahead negative body, x => (body.run x).look negative
  | .behind negative body, x => fun s rest =>
    let way := body.run { x with mayGrow := false }
    (way.endingHere (Subject.beginnings s.index body.width?)).look negative s rest

/-! ## Where a match can begin -/

/-- How many places of the text so far, the first ones, have a character at them or after them
    that a single takes; the search goes down from `count`. -/
def Subject.placesBefore (x : Subject) (what : Single) : Nat → Nat
  | 0 => 0
  | count + 1 =>
    match x.text[count]? with
    | some c => if x.flags.accepts c what then count + 1 else x.placesBefore what count
    | none => x.placesBefore what count

/-- How many places of the text, the first ones, can begin a match: everything that a match has to
    take must be found at its start or later. -/
def Expr.places : Expr → Subject → Nat
  | .single what, x => x.placesBefore what x.text.size
  | .seq first second, x => min (first.places x) (second.places x)
  | .alt first second, x => max (first.places x) (second.places x)
  | .capture _ body, x | .atomic body, x => body.places x
  | .repeated q body, x => if q.least = 0 then x.text.size + 1 else body.places x
  | _, x => x.text.size + 1

end StreamScan.Pattern

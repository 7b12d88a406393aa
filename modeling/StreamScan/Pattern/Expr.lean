import StreamScan.Text.WordCharacter
import StreamScan.Text.Characters
import StreamScan.Text.Case

/-!
# Expressions — what a pattern is made of

A pattern is an expression over single characters: sequences, alternatives, repetitions, groups
that remember what they matched, and conditions on the place where they stand.  A few flags hold
for the pattern as a whole and decide what some of its parts mean.

* **`Single`** — what takes one character.  `Flags.accepts` says which.
* **`Anchor`** — a condition that takes none.
* **`Expr`** — the expressions.
* **`Expr.width?`** — how many characters an expression takes, if that is always the same.
-/

namespace StreamScan.Pattern

/-- What holds for a pattern as a whole. -/
structure Flags where
  ignoreCase : Bool := false
  /-- `^` and `$` hold at every line. -/
  multiLine : Bool := false
  /-- The full stop takes the end of a line too. -/
  dotAll : Bool := false
  /-- Blanks and remarks in the pattern are layout. -/
  verbose : Bool := false
  /-- Words, digits, blanks and case are those of ASCII. -/
  ascii : Bool := false
deriving DecidableEq, Repr

/-- The flags that are set in one of two. -/
def Flags.union (f g : Flags) : Flags where
  ignoreCase := f.ignoreCase || g.ignoreCase
  multiLine := f.multiLine || g.multiLine
  dotAll := f.dotAll || g.dotAll
  verbose := f.verbose || g.verbose
  ascii := f.ascii || g.ascii

/-- The flags that the bits of a number stand for; the other bits say nothing. -/
def Flags.ofBits (bits : Nat) : Flags where
  ignoreCase := bits.testBit 1
  multiLine := bits.testBit 3
  dotAll := bits.testBit 4
  verbose := bits.testBit 6
  ascii := bits.testBit 7

/-- The named classes of characters. -/
inductive Category where
  | digit
  | word
  | blank
deriving DecidableEq, Repr

/-- A part of a class: a range of characters, given by their numbers, or a category or its
    complement. -/
inductive ClassItem where
  | range (first last : Nat)
  | category (kind : Category) (complement : Bool)
deriving DecidableEq, Repr

/-- What takes one character: a given one, any, or one of a class. -/
inductive Single where
  | code (number : Nat)
  | any
  | oneOf (items : List ClassItem) (complement : Bool)
deriving DecidableEq, Repr

/-- A condition on the place between two characters. -/
inductive Anchor where
  /-- The start of the text, or of a line. -/
  | caret
  /-- The end of the text, the place before a last line end, or the end of a line. -/
  | dollar
  | textStart
  | textEnd
  /-- A word begins or ends here. -/
  | boundary
  | notBoundary
deriving DecidableEq, Repr

/-- Which of its possible repetitions an expression tries first: as many as it can, as few, or
    as many without ever giving one back. -/
inductive Mode where
  | greedy
  | reluctant
  | possessive
deriving DecidableEq, Repr

/-- How often an expression is repeated. -/
structure Quantifier where
  least : Nat
  most : Option Nat
  mode : Mode
deriving DecidableEq, Repr

/-- A pattern. -/
inductive Expr where
  | empty
  | single (what : Single)
  | anchor (condition : Anchor)
  | seq (first second : Expr)
  | alt (first second : Expr)
  /-- Remembers what `body` matched under a number. -/
  | capture (index : Nat) (body : Expr)
  /-- What the group with this number matched last. -/
  | again (index : Nat)
  | repeated (quantifier : Quantifier) (body : Expr)
  /-- Commits to the first way in which `body` matches. -/
  | atomic (body : Expr)
  /-- Holds if `body` matches the text that comes next. -/
  | ahead (negative : Bool) (body : Expr)
  /-- Holds if `body` matches the text just before. -/
  | behind (negative : Bool) (body : Expr)
deriving Repr

namespace Flags

/-- Whether a character is in a category. -/
def inCategory (f : Flags) (c : Char) : Category → Bool
  | .digit => if f.ascii then c.isDigit else Text.isDigit c
  | .word => if f.ascii then Text.isAsciiWord c else Text.isWord c
  | .blank => if f.ascii then Text.isAsciiBlank c else Text.isBlank c

/-- The characters that count as the given one. -/
def forms (f : Flags) (c : Char) : List Char :=
  if f.ignoreCase then Text.variants f.ascii c else [c]

/-- Whether a character is in a part of a class, case being what it is. -/
def inItem (f : Flags) (c : Char) : ClassItem → Bool
  | .range first last => first ≤ c.toNat && c.toNat ≤ last
  | .category kind complement => f.inCategory c kind != complement

/-- Whether a single takes a character. -/
def accepts (f : Flags) (c : Char) : Single → Bool
  | .code number => (f.forms c).any (·.toNat == number)
  | .any => f.dotAll || c != '\n'
  | .oneOf items complement =>
      (f.forms c).any (fun form => items.any (f.inItem form)) != complement

end Flags

namespace Expr

/-- How many characters an expression takes, if that is always the same. -/
def width? : Expr → Option Nat
  | empty | anchor _ | ahead _ _ | behind _ _ => some 0
  | single _ => some 1
  | seq a b => do some ((← a.width?) + (← b.width?))
  | alt a b => do if (← a.width?) = (← b.width?) then a.width? else none
  | capture _ body | atomic body => body.width?
  | again _ => none
  | repeated q body => do if q.most = some q.least then some (q.least * (← body.width?)) else none

end Expr

end StreamScan.Pattern

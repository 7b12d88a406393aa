import StreamScan.Text.Characters
import StreamScan.Text.Unmarked

/-!
# Notation — integers and text between quotes

An integer is written with decimal digits, of any script, and perhaps a sign before them.  Single
underscores may part the digits, and layout around the whole is ignored.  The time to read one grows
with the square of its length, so that too long a one is refused.

A path that is named in a message stands between quotes, so that its ends can be seen.  The
quotes are single ones, or double ones if the text holds a single and no double one.  Inside,
the quote in use and the backslash get a backslash in front, the three common line controls are
written by letter, and any other character that leaves no mark is written by its number.

* **`integer?`** — the integer that a text spells.
* **`quoted`** — a text between its quotes.
-/

namespace StreamScan.Text

/-! ## Integers -/

/-- The number that the digits so far and those of a text spell.  `afterDigit` tells whether the
    last character was a digit: an underscore may only stand between two. -/
def natural? (value : Nat) (afterDigit : Bool) : List Char → Option Nat
  | [] => if afterDigit then some value else none
  | c :: cs =>
    if c = '_' then if afterDigit then natural? value false cs else none
    else
      match digitValue? c with
      | some d => natural? (value * 10 + d) true cs
      | none => none

/-- A text without the layout at its ends. -/
def trimmed (cs : List Char) : List Char :=
  ((cs.dropWhile isLayout).reverse.dropWhile isLayout).reverse

/-- The number of digits up to which an integer is read. -/
def maxDigits : Nat := 4300

/-- The number that a text spells, if it does not take too many digits for that. -/
def magnitude? (cs : List Char) : Option Nat :=
  if maxDigits < cs.countP (· != '_') then none else natural? 0 false cs

/-- The integer that a text spells. -/
def integer? (text : String) : Option Int :=
  match trimmed text.toList with
  | '-' :: cs => (magnitude? cs).map fun n => -(n : Int)
  | '+' :: cs => (magnitude? cs).map fun n => (n : Int)
  | cs => (magnitude? cs).map fun n => (n : Int)

/-! ## Text between quotes -/

/-- A character as it stands between quotes of the kind `quote`. -/
def escaped (quote c : Char) : List Char :=
  if c = quote || c = '\\' then ['\\', c]
  else if c = '\n' then ['\\', 'n']
  else if c = '\r' then ['\\', 'r']
  else if c = '\t' then ['\\', 't']
  else if leavesNoMark c then
    if c.toNat < 0x100 then '\\' :: 'x' :: hexDigits 2 c.toNat
    else if c.toNat < 0x10000 then '\\' :: 'u' :: hexDigits 4 c.toNat
    else '\\' :: 'U' :: hexDigits 8 c.toNat
  else [c]

/-- The quote to use around a text. -/
def quoteFor (cs : List Char) : Char :=
  if cs.contains '\x27' && !cs.contains '"' then '"' else '\x27'

/-- The text between its quotes. -/
def quoted (text : String) : String :=
  let cs := text.toList
  let quote := quoteFor cs
  String.ofList (quote :: (cs.flatMap (escaped quote) ++ [quote]))

end StreamScan.Text

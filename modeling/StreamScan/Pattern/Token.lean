import StreamScan.Pattern.Expr
import StreamScan.Text.Characters

/-!
# Tokens — the written form of a pattern, cut into pieces

A written pattern is a sequence of tokens: single characters and classes, conditions, references
to groups, quantifiers, bars, and the brackets of groups.  Reading one token takes at least one
character, and what cannot be read as a token makes the whole pattern invalid.

In a verbose pattern, blanks and remarks (from `#` to the end of a line) are layout; `layoutFree`
removes them before the tokens are read.  They stay where they are meant: after a backslash and
inside a class.

* **`Token`** — the pieces.
* **`Token.ofText?`** — the tokens of a written pattern.
-/

namespace StreamScan.Pattern

/-- How a pattern names a group. -/
inductive Reference where
  | number (index : Nat)
  | name (name : String)
deriving DecidableEq, Repr

/-- What the opening bracket of a group says about it. -/
inductive Opening where
  | plain
  | capture (name : Option String)
  | atomic
  | ahead (negative : Bool)
  | behind (negative : Bool)
deriving DecidableEq, Repr

/-- A piece of a written pattern. -/
inductive Token where
  | single (what : Single)
  | anchor (condition : Anchor)
  | reference (group : Reference)
  | quantifier (quantifier : Quantifier)
  | bar
  | opening (kind : Opening)
  | closing
  /-- Flags for the whole pattern; a remark sets none. -/
  | switch (flags : Flags)
deriving DecidableEq, Repr

namespace Token

/-! ## Layout -/

/-- Where the removal of layout stands. -/
inductive LayoutState where
  | outside
  | escaped
  | remark
  | classStart
  /-- At the first member of a class, where a closing bracket is an ordinary character. -/
  | firstMember
  | inClass
  | escapedInClass

/-- The text without its layout. -/
def withoutLayout : LayoutState → List Char → List Char
  | _, [] => []
  | .outside, c :: cs =>
    if c = '\\' then c :: withoutLayout .escaped cs
    else if c = '[' then c :: withoutLayout .classStart cs
    else if c = '#' then withoutLayout .remark cs
    else if Text.isLayout c then withoutLayout .outside cs
    else c :: withoutLayout .outside cs
  | .escaped, c :: cs => c :: withoutLayout .outside cs
  | .remark, c :: cs => withoutLayout (if c = '\n' then .outside else .remark) cs
  | .classStart, c :: cs =>
    if c = '^' then c :: withoutLayout .firstMember cs
    else if c = '\\' then c :: withoutLayout .escapedInClass cs
    else c :: withoutLayout .inClass cs
  | .firstMember, c :: cs =>
    if c = '\\' then c :: withoutLayout .escapedInClass cs
    else c :: withoutLayout .inClass cs
  | .inClass, c :: cs =>
    if c = ']' then c :: withoutLayout .outside cs
    else if c = '\\' then c :: withoutLayout .escapedInClass cs
    else c :: withoutLayout .inClass cs
  | .escapedInClass, c :: cs => c :: withoutLayout .inClass cs

/-! ## Numbers and names -/

/-- Reads exactly so many hexadecimal digits after those that make up `value`. -/
def hexNumber? : Nat → Nat → List Char → Option (Nat × List Char)
  | 0, value, cs => some (value, cs)
  | _ + 1, _, [] => none
  | digits + 1, value, c :: cs => do
    let d ← Text.hexValue? c
    hexNumber? digits (value * 16 + d) cs

/-- Reads decimal digits, if there are any. -/
def decimal? (cs : List Char) : Option Nat × List Char :=
  let digits := cs.takeWhile Char.isDigit
  (if digits.isEmpty then none else some (Text.decimal digits), cs.dropWhile Char.isDigit)

/-- Reads a name up to the character that ends it. -/
def name? (final : Char) (cs : List Char) : Option (String × List Char) :=
  match cs.takeWhile (· != final), cs.dropWhile (· != final) with
  | first :: more, _ :: rest =>
    if Text.isWord first && !Text.isDigit first && more.all Text.isWord then
      some (String.ofList (first :: more), rest)
    else none
  | _, _ => none

/-! ## Escapes -/

/-- The categories by their letters. -/
def category? : Char → Option ClassItem
  | 'd' => some (.category .digit false)
  | 'D' => some (.category .digit true)
  | 'w' => some (.category .word false)
  | 'W' => some (.category .word true)
  | 's' => some (.category .blank false)
  | 'S' => some (.category .blank true)
  | _ => none

/-- The conditions by their letters. -/
def anchor? : Char → Option Anchor
  | 'A' => some .textStart
  | 'Z' => some .textEnd
  | 'b' => some .boundary
  | 'B' => some .notBoundary
  | _ => none

/-- The controls by their letters. -/
def control? : Char → Option Nat
  | 'a' => some 7
  | 'b' => some 8
  | 't' => some 9
  | 'n' => some 10
  | 'v' => some 11
  | 'f' => some 12
  | 'r' => some 13
  | _ => none

/-- Reads the rest of an escape that stands for a character: a control by its letter, a number in
    hexadecimal, or any character that is no letter or digit for itself. -/
def escapedCode? : List Char → Option (Nat × List Char)
  | 'x' :: cs => hexNumber? 2 0 cs
  | 'u' :: cs => hexNumber? 4 0 cs
  | 'U' :: cs => (hexNumber? 8 0 cs).filter (·.1 < 0x110000)
  | c :: cs =>
    match control? c with
    | some code => some (code, cs)
    | none => if c.isAlphanum then none else some (c.toNat, cs)
  | [] => none

/-- Reads what follows a backslash outside a class.  The number of a group has one digit or
    two. -/
def escaped? : List Char → Option (Token × List Char)
  | [] => none
  | c :: cs =>
    match category? c, anchor? c with
    | some item, _ => some (.single (.oneOf [item] false), cs)
    | none, some condition => some (.anchor condition, cs)
    | none, none =>
      if c.isDigit && c != '0' then
        let more := (cs.take 1).filter Char.isDigit
        some (.reference (.number (Text.decimal (c :: more))), cs.drop more.length)
      else (escapedCode? (c :: cs)).map fun (code, rest) => (.single (.code code), rest)

/-! ## Classes -/

/-- Reads one member of a class. -/
def classItem? : List Char → Option (ClassItem × List Char)
  | [] => none
  | '\\' :: cs =>
    match cs.head? >>= category? with
    | some item => some (item, cs.drop 1)
    | none => (escapedCode? cs).map fun (code, rest) => (.range code code, rest)
  | c :: cs => some (.range c.toNat c.toNat, cs)

/-- What a hyphen between two members makes of them: a range, if they are characters and in
    order; itself a member, if one of them is a category. -/
def spanned? : ClassItem → ClassItem → Option (List ClassItem)
  | .range first _, .range last _ => if last < first then none else some [.range first last]
  | first, last => some [first, .range '-'.toNat '-'.toNat, last]

/-- Reads the next member or range of a class.  A hyphen is an ordinary character after a
    category and before the closing bracket. -/
def classPart? (cs : List Char) : Option (List ClassItem × List Char) := do
  let (item, rest) ← classItem? cs
  match item, rest with
  | .category _ _, _ => some ([item], rest)
  | .range _ _, '-' :: ']' :: _ => some ([item], rest)
  | .range _ _, '-' :: after => do
    let (last, rest) ← classItem? after
    some (← spanned? item last, rest)
  | .range _ _, _ => some ([item], rest)

/-- Reads the members of a class up to its closing bracket, at most so many. -/
def classItems? : Nat → List Char → Option (List ClassItem × List Char)
  | 0, _ => none
  | parts + 1, cs => do
    let (items, rest) ← classPart? cs
    match rest with
    | ']' :: rest => some (items, rest)
    | _ => do
      let (more, rest) ← classItems? parts rest
      some (items ++ more, rest)

/-- Reads a class after its opening bracket. -/
def class? (cs : List Char) : Option (Token × List Char) :=
  let complement := cs.head? = some '^'
  let members := if complement then cs.drop 1 else cs
  (classItems? members.length members).map fun (items, rest) =>
    (.single (.oneOf items complement), rest)

/-! ## Quantifiers -/

/-- The greatest number of repetitions, and more, that a quantifier cannot ask for. -/
def tooOften : Nat := 0xFFFFFFFF

/-- Reads the mode of a quantifier and puts the quantifier together. -/
def quantified? (least : Nat) (most : Option Nat) (cs : List Char) :
    Option (Token × List Char) :=
  if tooOften ≤ least || tooOften ≤ most.getD least || most.getD least < least then none
  else
    match cs with
    | '?' :: rest => some (.quantifier ⟨least, most, .reluctant⟩, rest)
    | '+' :: rest => some (.quantifier ⟨least, most, .possessive⟩, rest)
    | _ => some (.quantifier ⟨least, most, .greedy⟩, cs)

/-- Reads the bounds of a quantifier after its opening brace, if they are well formed.  One of
    two may be left out, or both. -/
def bounds? (cs : List Char) : Option (Nat × Option Nat × List Char) :=
  match decimal? cs with
  | (least, ',' :: rest) =>
    match decimal? rest with
    | (most, '}' :: rest) => some (least.getD 0, most, rest)
    | _ => none
  | (some times, '}' :: rest) => some (times, some times, rest)
  | _ => none

/-! ## Groups -/

/-- A flag by its letter. -/
def flag? : Char → Option Flags
  | 'i' => some { ignoreCase := true }
  | 'm' => some { multiLine := true }
  | 's' => some { dotAll := true }
  | 'x' => some { verbose := true }
  | 'a' => some { ascii := true }
  | 'u' => some {}
  | _ => none

/-- Reads flags up to the closing bracket. -/
def flags? : Flags → List Char → Option (Token × List Char)
  | set, ')' :: rest => some (.switch set, rest)
  | set, c :: cs => do flags? (set.union (← flag? c)) cs
  | _, [] => none

/-- Reads what follows the opening bracket of a group and a question mark. -/
def extension? : List Char → Option (Token × List Char)
  | ':' :: rest => some (.opening .plain, rest)
  | '>' :: rest => some (.opening .atomic, rest)
  | '=' :: rest => some (.opening (.ahead false), rest)
  | '!' :: rest => some (.opening (.ahead true), rest)
  | '<' :: '=' :: rest => some (.opening (.behind false), rest)
  | '<' :: '!' :: rest => some (.opening (.behind true), rest)
  | 'P' :: '=' :: rest =>
    (name? ')' rest).map fun (name, rest) => (.reference (.name name), rest)
  | 'P' :: '<' :: rest | '<' :: rest =>
    (name? '>' rest).map fun (name, rest) => (.opening (.capture (some name)), rest)
  | '#' :: rest =>
    match rest.dropWhile (· != ')') with
    | _ :: rest => some (.switch {}, rest)
    | [] => none
  | cs => flags? {} cs

/-! ## The tokens of a text -/

/-- Reads one token. -/
def read? : List Char → Option (Token × List Char)
  | [] => none
  | '\\' :: cs => escaped? cs
  | '[' :: cs => class? cs
  | '(' :: '?' :: cs => extension? cs
  | '(' :: cs => some (.opening (.capture none), cs)
  | ')' :: cs => some (.closing, cs)
  | '|' :: cs => some (.bar, cs)
  | '.' :: cs => some (.single .any, cs)
  | '^' :: cs => some (.anchor .caret, cs)
  | '$' :: cs => some (.anchor .dollar, cs)
  | '*' :: cs => quantified? 0 none cs
  | '+' :: cs => quantified? 1 none cs
  | '?' :: cs => quantified? 0 (some 1) cs
  | c :: cs =>
    match if c = '{' then bounds? cs else none with
    | some (least, most, rest) => quantified? least most rest
    | none => some (.single (.code c.toNat), cs)

/-- Reads at most so many tokens; there have to be no more. -/
def readAll? : Nat → List Char → Option (List Token)
  | _, [] => some []
  | 0, _ :: _ => none
  | tokens + 1, c :: cs => do
    let (token, rest) ← read? (c :: cs)
    some (token :: (← readAll? tokens rest))

/-- The tokens of a written pattern.  Each takes a character at least, so there are no more of
    them than characters. -/
def ofText? (verbose : Bool) (text : List Char) : Option (List Token) :=
  readAll? text.length (if verbose then withoutLayout .outside text else text)

end Token

end StreamScan.Pattern

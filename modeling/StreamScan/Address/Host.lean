import StreamScan.Failure
import StreamScan.Text.Characters

/-!
# Hosts — which of them a file URI may name

The host of a URI says nothing about the path, but it has to be well formed.  A host in brackets is
a numerical address: eight groups of hexadecimal digits, the last two of which may be written with
four decimal numbers, and a run of zero groups left out; or an address of a future version, which
begins with `v`.  Outside brackets any host will do, unless a character of it is another form of one
that would end it.

* **`isGrouped`** — an address of eight groups.
* **`hostFailure?`** — what is wrong with a host.
-/

namespace StreamScan.Address

/-- The pieces of a text between the occurrences of a character. -/
def pieces (separator : Char) : List Char → List (List Char)
  | [] => [[]]
  | c :: cs =>
    match pieces separator cs with
    | [] => [[c]]
    | first :: more => if c = separator then [] :: first :: more else (c :: first) :: more

/-- Whether a text is a decimal number up to 255, without needless zeroes. -/
def isOctet (cs : List Char) : Bool :=
  !cs.isEmpty && cs.length ≤ 3 && cs.all Char.isDigit && (cs = ['0'] || cs.head? != some '0')
    && Text.decimal cs ≤ 255

/-- Whether a text is an address of four decimal numbers. -/
def isDotted (cs : List Char) : Bool :=
  let octets := pieces '.' cs
  octets.length = 4 && octets.all isOctet

/-- Whether a text is one group of an address. -/
def isGroup (cs : List Char) : Bool := !cs.isEmpty && cs.length ≤ 4 && cs.all Text.isHexDigit

/-- The groups of an address, where one of four decimal numbers at the end counts as two. -/
def groups (cs : List Char) : List (List Char) :=
  let parts := pieces ':' cs
  match parts.getLast? with
  | some last => if isDotted last then parts.dropLast ++ [['0'], ['0']] else parts
  | none => parts

/-- Whether groups make up an address.  One place between two groups may be empty: it stands for
    the zero groups that are missing.  If it is the first or the last, the group on its outer side
    is empty as well. -/
def isComplete (parts : List (List Char)) : Bool :=
  match parts with
  | [] => false
  | first :: rest =>
    match rest.dropLast.idxOf? [] with
    | none => parts.length = 8 && parts.all isGroup
    | some i =>
      let high := first :: rest.take i
      let low := rest.drop (i + 1)
      let high := if high = [[]] then [] else high
      let low := if low = [[]] then [] else low
      high.length + low.length ≤ 7 && high.all isGroup && low.all isGroup

/-- Whether a text is an address of eight groups, perhaps with a zone after a percent sign. -/
def isGrouped (cs : List Char) : Bool :=
  let zone := cs.dropWhile (· != '%')
  let parts := groups (cs.takeWhile (· != '%'))
  (zone.isEmpty || (zone.length > 1 && !(zone.drop 1).contains '%'))
    && 3 ≤ (pieces ':' (cs.takeWhile (· != '%'))).length && isComplete parts

/-- Whether a text is an address of a future version. -/
def isFuture (cs : List Char) : Bool :=
  match cs with
  | 'v' :: rest =>
    !(rest.takeWhile Text.isHexDigit).isEmpty &&
      match rest.dropWhile Text.isHexDigit with
      | '.' :: _ :: _ => true
      | _ => false
  | _ => false

/-- The characters that have a slash, a question mark, a hash, an at sign or a colon as their plain
    form, or as a part of it. -/
def disguises : List Nat :=
  [0x2048, 0x2049, 0x2047, 0x2100, 0x2101, 0x2105, 0x2106, 0x2A74, 0xFE13, 0xFE16, 0xFE55,
   0xFE56, 0xFE5F, 0xFE6B, 0xFF03, 0xFF0F, 0xFF1A, 0xFF1F, 0xFF20]

/-- What is wrong with a host that has both brackets. -/
def bracketFailure? (host : List Char) : Option Failure :=
  let inside := ((host.dropWhile (· != '[')).drop 1).takeWhile (· != ']')
  if inside.head? = some 'v' then
    if isFuture inside then none else some .futureHost
  else if isDotted inside then some .dottedHost
  else if isGrouped inside then none
  else some (.noHostAddress (String.ofList inside))

/-- What is wrong with a host. -/
def hostFailure? (host : List Char) : Option Failure :=
  if host.contains '[' != host.contains ']' then some .malformedHost
  else
    match if host.contains '[' then bracketFailure? host else none with
    | some failure => some failure
    | none =>
      if host.any fun c => disguises.contains c.toNat then
        some (.disguisedHost (String.ofList host))
      else none

end StreamScan.Address

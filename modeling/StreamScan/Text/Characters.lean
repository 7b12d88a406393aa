/-!
# Characters — blanks and digits

A class of characters is given by a table: a list of ranges of code points, both ends included.
The ASCII digits are decided directly; `wideDigit` lists those of the other scripts, ten in a row
for each, from zero to nine.

White space is what separates words on paper: the space in its many widths, tabs and the ends of
lines.  Where blanks only lay out what a person has written, the four information separators of
ASCII count as blanks too.

* **`within`** — whether a character lies in one of the ranges of a table.
* **`isBlank`**, **`isLayout`** — white space.
* **`isDigit`**, **`digitValue?`** — decimal digits and their values.
* **`hexValue?`**, **`hexDigits`** — hexadecimal digits, read and written.
-/

namespace StreamScan.Text

/-- A table of ranges of code points, both ends included. -/
abbrev Ranges := List (Nat × Nat)

/-- Whether a character lies in one of the ranges of a table. -/
def within (table : Ranges) (c : Char) : Bool :=
  table.any fun r => r.1 ≤ c.toNat && c.toNat ≤ r.2

/-! ## White space -/

/-- The ranges of white space. -/
def blank : Ranges :=
  [(0x9, 0xD), (0x20, 0x20), (0x85, 0x85), (0xA0, 0xA0), (0x1680, 0x1680), (0x2000, 0x200A),
   (0x2028, 0x2029), (0x202F, 0x202F), (0x205F, 0x205F), (0x3000, 0x3000)]

/-- Whether a character is white space. -/
def isBlank (c : Char) : Bool := within blank c

/-- Whether a character only lays out what is written around it. -/
def isLayout (c : Char) : Bool := isBlank c || (0x1C ≤ c.toNat && c.toNat ≤ 0x1F)

/-- Whether a character is white space of ASCII. -/
def isAsciiBlank (c : Char) : Bool := c = ' ' || (9 ≤ c.toNat && c.toNat ≤ 13)

/-! ## Decimal digits -/

/-- The ranges of decimal digits beyond ASCII. -/
def wideDigit : Ranges :=
  [(0x660, 0x669), (0x6F0, 0x6F9), (0x7C0, 0x7C9), (0x966, 0x96F), (0x9E6, 0x9EF),
   (0xA66, 0xA6F), (0xAE6, 0xAEF), (0xB66, 0xB6F), (0xBE6, 0xBEF), (0xC66, 0xC6F),
   (0xCE6, 0xCEF), (0xD66, 0xD6F), (0xDE6, 0xDEF), (0xE50, 0xE59), (0xED0, 0xED9),
   (0xF20, 0xF29), (0x1040, 0x1049), (0x1090, 0x1099), (0x17E0, 0x17E9), (0x1810, 0x1819),
   (0x1946, 0x194F), (0x19D0, 0x19D9), (0x1A80, 0x1A89), (0x1A90, 0x1A99), (0x1B50, 0x1B59),
   (0x1BB0, 0x1BB9), (0x1C40, 0x1C49), (0x1C50, 0x1C59), (0xA620, 0xA629), (0xA8D0, 0xA8D9),
   (0xA900, 0xA909), (0xA9D0, 0xA9D9), (0xA9F0, 0xA9F9), (0xAA50, 0xAA59), (0xABF0, 0xABF9),
   (0xFF10, 0xFF19), (0x104A0, 0x104A9), (0x10D30, 0x10D39), (0x11066, 0x1106F),
   (0x110F0, 0x110F9), (0x11136, 0x1113F), (0x111D0, 0x111D9), (0x112F0, 0x112F9),
   (0x11450, 0x11459), (0x114D0, 0x114D9), (0x11650, 0x11659), (0x116C0, 0x116C9),
   (0x11730, 0x11739), (0x118E0, 0x118E9), (0x11950, 0x11959), (0x11C50, 0x11C59),
   (0x11D50, 0x11D59), (0x11DA0, 0x11DA9), (0x16A60, 0x16A69), (0x16AC0, 0x16AC9),
   (0x16B50, 0x16B59), (0x1D7CE, 0x1D7FF), (0x1E140, 0x1E149), (0x1E2F0, 0x1E2F9),
   (0x1E950, 0x1E959), (0x1FBF0, 0x1FBF9)]

/-- Whether a character is a decimal digit of some script. -/
def isDigit (c : Char) : Bool :=
  if c.toNat < 0x80 then c.isDigit else within wideDigit c

/-- The number that ASCII digits spell. -/
def decimal (digits : List Char) : Nat :=
  digits.foldl (fun n c => n * 10 + (c.toNat - '0'.toNat)) 0

/-- The value of a decimal digit. -/
def digitValue? (c : Char) : Option Nat :=
  if c.toNat < 0x80 then if c.isDigit then some (c.toNat - '0'.toNat) else none
  else
    (wideDigit.find? fun r => r.1 ≤ c.toNat && c.toNat ≤ r.2).map fun r => (c.toNat - r.1) % 10

/-! ## Hexadecimal digits -/

/-- The value of a hexadecimal digit. -/
def hexValue? (c : Char) : Option Nat :=
  if c.isDigit then some (c.toNat - '0'.toNat)
  else if 'a' ≤ c && c ≤ 'f' then some (c.toNat - 'a'.toNat + 10)
  else if 'A' ≤ c && c ≤ 'F' then some (c.toNat - 'A'.toNat + 10)
  else none

/-- Whether a character is a hexadecimal digit. -/
def isHexDigit (c : Char) : Bool := (hexValue? c).isSome

/-- The digit for a value below sixteen. -/
def hexDigit (n : Nat) : Char :=
  if n < 10 then Char.ofNat (48 + n) else Char.ofNat (87 + n)

/-- A number in hexadecimal, with exactly `width` digits. -/
def hexDigits : Nat → Nat → List Char
  | 0, _ => []
  | width + 1, n => hexDigits width (n / 16) ++ [hexDigit (n % 16)]

end StreamScan.Text

import StreamScan.Address.Host
import StreamScan.Text.Characters
import StreamScan.Utf8.Text

/-!
# Addresses — plain paths and file URIs

What is to be scanned is named by an address: a path, taken as it stands, or a URI that begins
with `file://`.  Of a URI only the path counts.  The host before it has to be well formed and is
dropped, and so are a query and a fragment after it; tabs and line ends are layout and are removed
from all of it.  Then bytes written as `%41` are decoded, each run of ASCII by itself, and what they
spell is read as UTF-8.

* **`Address.path`** — the path that an address names.
* **`Address.unescape`** — percent escapes decoded.
-/

namespace StreamScan.Address

/-- The byte that two hexadecimal digits spell. -/
def hexByte? (high low : Char) : Option UInt8 := do
  some ((← Text.hexValue? high) * 16 + (← Text.hexValue? low)).toUInt8

/-- The bytes of a run of ASCII, each percent escape being one.  A percent sign without two
    digits stands for itself. -/
def escapedBytes : List Char → Bytes
  | [] => []
  | c :: high :: low :: rest =>
    match if c = '%' then hexByte? high low else none with
    | some byte => byte :: escapedBytes rest
    | none => c.toNat.toUInt8 :: escapedBytes (high :: low :: rest)
  | c :: rest => c.toNat.toUInt8 :: escapedBytes rest

/-- Percent escapes decoded.  `run` holds the ASCII characters since the last other character,
    the latest first. -/
def unescapeFrom (run : List Char) : List Char → List Char
  | [] => Utf8.text (escapedBytes run.reverse)
  | c :: cs =>
    if c.toNat < 0x80 then unescapeFrom (c :: run) cs
    else Utf8.text (escapedBytes run.reverse) ++ c :: unescapeFrom [] cs

/-- Percent escapes decoded. -/
def unescape (cs : List Char) : List Char := unescapeFrom [] cs

/-- How a file URI begins. -/
def scheme : List Char := "file://".toList

/-- Whether a character is layout in a URI. -/
def isLayout (c : Char) : Bool := c = '\t' || c = '\n' || c = '\r'

/-- Whether a character ends the host. -/
def endsHost (c : Char) : Bool := c = '/' || c = '?' || c = '#'

/-- The path of what follows the scheme of a file URI. -/
def pathOf (rest : List Char) : Except Failure (List Char) :=
  let rest := rest.filter (!isLayout ·)
  match hostFailure? (rest.takeWhile (!endsHost ·)) with
  | some failure => .error failure
  | none =>
    let path := rest.dropWhile (!endsHost ·)
    .ok (unescape ((path.takeWhile (· != '#')).takeWhile (· != '?')))

/-- The path that an address names. -/
def path (address : String) : Except Failure String :=
  let cs := address.toList
  if scheme.isPrefixOf cs then (pathOf (cs.drop scheme.length)).map String.ofList
  else .ok address

end StreamScan.Address

import StreamScan.Utf8.Text

/-!
# Match — the bytes that matched, and where

A match is a stretch of the stream: the bytes themselves and the offset of the first, counted
from the start of the stream.
-/

namespace StreamScan

/-- The bytes of a match and their offset in the stream. -/
structure Match where
  offset : Nat
  data : Bytes
deriving DecidableEq, Repr

namespace Match

/-- The offset just after the last byte. -/
def stop (m : Match) : Nat := m.offset + m.data.length

/-- The match as text, with one U+FFFD for each sequence that breaks off. -/
def text (m : Match) : String := String.ofList (Utf8.text m.data)

end Match

end StreamScan

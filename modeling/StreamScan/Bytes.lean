/-!
# Bytes — byte strings, fixed blocks and stretches of them

A `Bytes` is a byte string that travels: what a read brought, what a match consists of.  A
`Block` is a byte string that stays in one place and is addressed by position: the payload of
a source, one of the two arrays of a window.

A stretch of a block is named by two positions.  A position is any integer: a negative one
counts from the end of the block, and one outside is moved to the nearer end.  With that rule
`Block.slice` and `Block.splice` are defined for all positions, and the lemmas below say what
they are on the positions that lie inside.
-/

namespace StreamScan

/-- A byte string that travels. -/
abbrev Bytes := List UInt8

/-- A byte string that is addressed by position. -/
abbrev Block := Array UInt8

namespace Block

/-- The index that position `i` denotes in a block of `size` bytes. -/
def index (size : Nat) (i : Int) : Nat :=
  if i < 0 then (size + i).toNat else min i.toNat size

/-- The bytes from position `i` up to position `j`, none if `j` comes first. -/
def slice (b : Block) (i j : Int) : Block :=
  b.extract (index b.size i) (index b.size j)

/-- The block with the bytes from position `i` up to position `j` replaced by `new`; if `j`
    comes first, `new` is put in at `i`. -/
def splice (b : Block) (i j : Int) (new : Block) : Block :=
  let start := index b.size i
  let stop := max start (index b.size j)
  b.extract 0 start ++ new ++ b.extract stop b.size

/-- The block with `new` written over it from index `i` on.  What does not fit is dropped. -/
def overwrite (b : Block) (i : Nat) (new : Bytes) : Block :=
  let fitting := (new.take (b.size - i)).toArray
  b.extract 0 i ++ fitting ++ b.extract (i + fitting.size) b.size

theorem index_natCast (size n : Nat) : index size (n : Int) = min n size := by
  have h : ¬ ((n : Int) < 0) := by omega
  simp [index, h]

theorem index_le (size : Nat) (i : Int) : index size i ≤ size := by
  rw [index]
  split <;> omega

theorem toList_slice (b : Block) (i j : Int) :
    (b.slice i j).toList =
      (b.toList.drop (index b.size i)).take (index b.size j - index b.size i) := by
  simp [slice, Array.toList_extract, List.extract_eq_take_drop]

end Block

end StreamScan

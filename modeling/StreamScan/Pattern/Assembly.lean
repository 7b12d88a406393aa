import StreamScan.Pattern.Token

/-!
# Assembly — from tokens to an expression

Tokens are put together one after the other.  What has been begun and not finished is a nest of
frames: the group that the next token belongs to, and the groups around it.  A token adds an item
to the innermost frame, changes its last item, starts a new alternative, or opens or closes a
frame.

Some sequences of tokens spell no expression: a quantifier with nothing before it or right after
another, a bracket without its partner, a reference to a group that does not exist or is still
open.

* **`groupNames`** — the groups of a pattern, in the order of their numbers.
* **`Expr.ofTokens?`** — the expression that tokens spell.
-/

namespace StreamScan.Pattern

/-- The number of a group that is opened when the groups in `seen` exist, and all the groups
    there are then.  A name that was used before names the same group. -/
def enter (seen : List (Option String)) (name : Option String) : Nat × List (Option String) :=
  match name.bind fun n => seen.idxOf? (some n) with
  | some i => (i + 1, seen)
  | none => (seen.length + 1, seen ++ [name])

/-- The groups that tokens open, in the order of their numbers. -/
def groupNames (tokens : List Token) : List (Option String) :=
  tokens.foldl (fun seen token =>
    match token with
    | .opening (.capture name) => (enter seen name).2
    | _ => seen) []

/-- The flags that tokens set. -/
def switches (tokens : List Token) : Flags :=
  tokens.foldl (fun set token =>
    match token with
    | .switch flags => set.union flags
    | _ => set) {}

/-- A group that has been opened and not closed, or the pattern as a whole. -/
structure Frame where
  kind : Opening
  /-- The number of the group, if it has one. -/
  number : Option Nat
  /-- The finished alternatives, the last one first. -/
  branches : List Expr
  /-- The items of the present alternative, the last one first. -/
  items : List Expr
  /-- Whether a quantifier may follow. -/
  quantifiable : Bool

namespace Frame

/-- A frame with nothing in it. -/
def start (kind : Opening) (number : Option Nat) : Frame := ⟨kind, number, [], [], false⟩

/-- The present alternative. -/
def branch (f : Frame) : Expr := f.items.foldl (fun rest item => .seq item rest) .empty

/-- All alternatives. -/
def body (f : Frame) : Expr := f.branches.foldl (fun rest branch => .alt branch rest) f.branch

/-- The group that a frame becomes when it is closed. -/
def group (f : Frame) : Expr :=
  match f.kind, f.number with
  | .capture _, some number => .capture number f.body
  | .atomic, _ => .atomic f.body
  | .ahead negative, _ => .ahead negative f.body
  | .behind negative, _ => .behind negative f.body
  | _, _ => f.body

/-- The frame with one more item. -/
def push (f : Frame) (item : Expr) : Frame :=
  { f with items := item :: f.items, quantifiable := true }

/-- The frame with its last item repeated. -/
def quantify? (f : Frame) (q : Quantifier) : Option Frame :=
  match f.quantifiable, f.items with
  | true, item :: items =>
    some { f with items := .repeated q item :: items, quantifiable := false }
  | _, _ => none

/-- The frame at the start of its next alternative. -/
def next (f : Frame) : Frame :=
  { f with branches := f.branch :: f.branches, items := [], quantifiable := false }

end Frame

/-- Frames within frames, and the groups seen so far. -/
structure Nest where
  inner : Frame
  outer : List Frame
  seen : List (Option String)

namespace Nest

/-- The nest before the first token. -/
def start : Nest := ⟨.start .plain none, [], []⟩

/-- The number of the group that a reference means, if the group exists and is not open. -/
def target? (n : Nest) (names : List (Option String)) (reference : Reference) : Option Nat :=
  let number :=
    match reference with
    | .number i => i
    | .name name => (names.idxOf? (some name)).elim 0 (· + 1)
  let isOpen := (n.inner :: n.outer).any (·.number == some number)
  if 1 ≤ number && number ≤ names.length && !isOpen then some number else none

/-- Adds one token, where the whole pattern has the groups in `names`. -/
def add? (names : List (Option String)) (n : Nest) : Token → Option Nest
  | .single what => some { n with inner := n.inner.push (.single what) }
  | .anchor condition => some { n with inner := n.inner.push (.anchor condition) }
  | .reference reference => do
    some { n with inner := n.inner.push (.again (← n.target? names reference)) }
  | .quantifier q => do some { n with inner := ← n.inner.quantify? q }
  | .bar => some { n with inner := n.inner.next }
  | .switch _ => some n
  | .opening (.capture name) =>
    let (number, seen) := enter n.seen name
    some ⟨.start (.capture name) (some number), n.inner :: n.outer, seen⟩
  | .opening kind => some ⟨.start kind none, n.inner :: n.outer, n.seen⟩
  | .closing =>
    match n.outer with
    | [] => none
    | parent :: outer => some ⟨parent.push n.inner.group, outer, n.seen⟩

end Nest

/-- The expression that tokens spell. -/
def Expr.ofTokens? (tokens : List Token) : Option Expr := do
  let nest ← tokens.foldlM (Nest.add? (groupNames tokens)) Nest.start
  if nest.outer.isEmpty then some nest.inner.body else none

end StreamScan.Pattern

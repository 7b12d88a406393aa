import StreamScan.Source

/-!
# Scripts — a source that plays back what it is told

A script lists the replies of a source, one for each read: bytes, *not yet*, a bare count or a
failure.  Bytes that do not fit are cut, and their remainder is the next step.  When no step is
left, the source has ended.  A script may also have a positional read, over a payload of its own
or one that always fails; its payload need not be what the steps hand out.
-/

namespace StreamScan

/-- One step of a script. -/
inductive ScriptStep where
  | bytes (bytes : Bytes)
  | notYet
  | count (reported : Int)
  | raise (failure : Failure)
deriving DecidableEq, Repr

namespace ScriptStep

/-- How many bytes a step can report. -/
def size : ScriptStep → Nat
  | bytes b => b.length
  | count reported => reported.toNat
  | _ => 0

end ScriptStep

/-- A source that plays back a list of steps. -/
structure Script where
  steps : List ScriptStep
  positional : Option (Except Failure Bytes)

namespace Script

/-- Reads into room for so many bytes: plays the next step. -/
def read (s : Script) (room : Nat) : Reply × Script :=
  match s.steps with
  | [] => (.count 0 [], s)
  | .notYet :: rest => (.notYet, { s with steps := rest })
  | .count reported :: rest => (.count reported [], { s with steps := rest })
  | .raise failure :: rest => (.failed failure, { s with steps := rest })
  | .bytes bytes :: rest =>
    if room < bytes.length then
      (.ofBytes (bytes.take room), { s with steps := .bytes (bytes.drop room) :: rest })
    else (.ofBytes bytes, { s with steps := rest })

/-- The positional read, if the script has one. -/
def readAt? (s : Script) : Option (PositionalRead Script) :=
  s.positional.map fun answer offset size =>
    (answer.map fun payload => (Block.slice payload.toArray offset (offset + size)).toList, s)

/-- How many bytes the steps can report. -/
def remaining (s : Script) : Nat := (s.steps.map ScriptStep.size).foldr (· + ·) 0

instance : FiniteSource Script where
  read := read
  readAt? := readAt?
  remaining := remaining
  remaining_read s room := by
    show (s.read room).2.remaining + (s.read room).1.size ≤ s.remaining
    obtain ⟨steps, positional⟩ := s
    match steps with
    | [] => exact Nat.le_refl _
    | .notYet :: rest => simp [read, remaining, Reply.size, ScriptStep.size]
    | .count reported :: rest =>
      simp [read, remaining, Reply.size, ScriptStep.size, Nat.add_comm]
    | .raise failure :: rest => simp [read, remaining, Reply.size, ScriptStep.size]
    | .bytes bytes :: rest =>
      rw [read]
      simp only
      split <;>
        simp only [Reply.size_ofBytes, remaining, List.map_cons, List.foldr_cons, ScriptStep.size,
          List.length_take, List.length_drop] <;> omega

end Script

end StreamScan

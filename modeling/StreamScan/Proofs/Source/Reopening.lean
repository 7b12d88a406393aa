import Mathlib.Data.List.Induction
import StreamScan.Proofs.Source.HandingOut
import StreamScan.Source.File

/-!
# A file that is closed and read again

A file source opens its file when it is needed, so that a read after `close` opens it once more, at
the start.  What was handed out before is then handed out a second time, and whoever reads on sees
the beginning of the file behind the piece that was read last.

A log of the calls keeps the bytes that were handed out and the places where the file was closed.
It tells where the next read begins: behind the bytes that were handed out since the file was
closed.  Positional reads, opening the file and asking for its path leave no entry, since they move
nothing.

* **`sinceClosed`** — the bytes of a log that were handed out since the file was closed.
* **`Standing`** — a source whose place is the one that the log tells; every call keeps this.
* **`reads_continue`** — a read goes on where the one before it stopped, unless the file was closed
  in between and that place is not the start.
* **`reads_restart`** — and then it hands out bytes twice.
-/

namespace StreamScan.FileSource

/-! ## Calls and what they leave in a log -/

/-- What a file source can be asked. -/
inductive Call where
  | readInto (target : Block)
  | readAt (offset size : Int)
  | opening
  | closing
  | path

/-- What a log keeps of a call. -/
inductive Event where
  | handed (bytes : Bytes)
  | closed
deriving DecidableEq

/-- The entry that a reply leaves; a failure leaves none. -/
def entry : Reply → List Event
  | .count reported written => [.handed (written.take reported.toNat)]
  | _ => []

/-- The entries of a call, and the source after it. -/
def perform (s : FileSource) : Call → List Event × FileSource
  | .readInto target =>
    let (reply, _, s) := StreamScan.readInto s target
    (entry reply, s)
  | .readAt offset size => ([], (s.readAt offset size).2)
  | .opening => ([], s.opened.2)
  | .closing => ([.closed], s.close)
  | .path => ([], s)

/-- All the bytes of a log. -/
def handed (log : List Event) : Bytes :=
  log.flatMap fun
    | .handed bytes => bytes
    | .closed => []

/-- The bytes of a log that were handed out since the file was closed. -/
def sinceClosed (log : List Event) : Bytes :=
  log.foldl (fun bytes event =>
    match event with
    | .handed more => bytes ++ more
    | .closed => []) []

section
variable (log : List Event)

theorem handed_append (more : List Event) : handed (log ++ more) = handed log ++ handed more :=
  List.flatMap_append

@[simp] theorem sinceClosed_handed (bytes : Bytes) :
    sinceClosed (log ++ [.handed bytes]) = sinceClosed log ++ bytes := by
  rw [sinceClosed, List.foldl_append]
  rfl

@[simp] theorem sinceClosed_closed : sinceClosed (log ++ [.closed]) = [] := by
  rw [sinceClosed, List.foldl_append]
  rfl

/-- Closing the file forgets what was handed out, and closing it again changes nothing. -/
theorem sinceClosed_replicate (again : Nat) :
    sinceClosed (log ++ List.replicate again .closed) =
      if again = 0 then sinceClosed log else [] := by
  cases again with
  | zero => rw [List.replicate_zero, List.append_nil, if_pos rfl]
  | succ again => rw [List.replicate_succ', ← List.append_assoc, sinceClosed_closed, if_neg nofun]

variable {log}

/-- All bytes were handed out since the file was closed, if none were when it was. -/
theorem sinceClosed_eq_handed
    (h : ∀ front back, log = front ++ .closed :: back → handed front = []) :
    sinceClosed log = handed log := by
  induction log using List.reverseRecOn with
  | nil => rfl
  | append_singleton log event ih =>
    have hfront : ∀ front back, log = front ++ .closed :: back → handed front = [] := by
      rintro front back rfl
      exact h front (back ++ [event]) (by rw [List.append_assoc, List.cons_append])
    rw [handed_append]
    cases event with
    | handed bytes =>
      rw [sinceClosed_handed, ih hfront]
      exact congrArg _ (List.append_nil bytes).symm
    | closed =>
      rw [sinceClosed_closed, h log [] rfl]
      rfl

end

/-! ## Where the next read begins -/

/-- A source whose file can be opened, and whose next read begins behind the bytes that were handed
    out since it was closed. -/
structure Standing (content : Block) (log : List Event) (s : FileSource) : Prop where
  fresh : s.fresh = .ok ⟨content, 0⟩
  current : s.current = .ok ⟨content, (sinceClosed log).length⟩
  inOrder : sinceClosed log <+: content.toList

section
variable {content : Block} {log : List Event} {s : FileSource}

/-- The bytes that a read into so much room hands out. -/
def nextBytes (content : Block) (log : List Event) (room : Nat) : Bytes :=
  (content.toList.drop (sinceClosed log).length).take room

theorem Standing.read_eq (h : Standing content log s) (room : Nat) :
    ByteSource.read s room = (.ofBytes (nextBytes content log room),
      { s with handle := some ⟨content,
        (sinceClosed log).length + (nextBytes content log room).length⟩ }) := by
  have hbytes : (content.extract (sinceClosed log).length
      ((sinceClosed log).length + room)).toList = nextBytes content log room :=
    Block.toList_extract_add _ _ _
  show s.read room = _
  rw [read, h.current]
  simp only [hbytes]

theorem Standing.append_nextBytes (h : Standing content log s) (room : Nat) :
    sinceClosed log ++ nextBytes content log room <+: content.toList := by
  obtain ⟨rest, hrest⟩ := h.inOrder
  refine ⟨rest.drop room, ?_⟩
  rw [nextBytes, ← hrest, List.drop_left, List.append_assoc, List.take_append_drop]

/-- A read moves the source behind the bytes that it hands out. -/
theorem Standing.read (h : Standing content log s) (room : Nat) :
    Standing content (log ++ [.handed (nextBytes content log room)])
      (ByteSource.read s room).2 := by
  rw [h.read_eq room]
  refine ⟨h.fresh, ?_, ?_⟩
  · rw [sinceClosed_handed, List.length_append]
    rfl
  · rw [sinceClosed_handed]
    exact h.append_nextBytes room

/-- Every call keeps the place that the log tells. -/
theorem Standing.perform (h : Standing content log s) (call : Call) :
    Standing content (log ++ (s.perform call).1) (s.perform call).2 := by
  cases call with
  | readInto target =>
    have hentry : entry (ByteSource.read s target.size).1 =
        [.handed (nextBytes content log target.size)] := by
      rw [h.read_eq, Reply.ofBytes, entry, Int.toNat_natCast, List.take_length]
    show Standing content (log ++ entry (ByteSource.read s target.size).1)
      (ByteSource.read s target.size).2
    rw [hentry]
    exact h.read target.size
  | readAt offset size =>
    have hopened : (s.readAt offset size).2 =
        { s with handle := some ⟨content, (sinceClosed log).length⟩ } := by
      rw [readAt, h.current]
      simp only
      split <;> rfl
    rw [FileSource.perform, List.append_nil, hopened]
    exact ⟨h.fresh, rfl, h.inOrder⟩
  | opening =>
    rw [FileSource.perform, List.append_nil, opened, h.current]
    exact ⟨h.fresh, rfl, h.inOrder⟩
  | closing =>
    refine ⟨h.fresh, ?_, ?_⟩
    · show s.fresh = .ok ⟨content, (sinceClosed (log ++ [.closed])).length⟩
      rw [sinceClosed_closed]
      exact h.fresh
    · show sinceClosed (log ++ [.closed]) <+: content.toList
      rw [sinceClosed_closed]
      exact List.nil_prefix
  | path =>
    rw [FileSource.perform, List.append_nil]
    exact h

/-- So does a run of calls. -/
theorem Standing.performAll (h : Standing content log s) (calls : List Call) :
    Standing content (log ++ (StreamScan.performAll FileSource.perform s calls).1)
      (StreamScan.performAll FileSource.perform s calls).2 := by
  induction calls generalizing log s with
  | nil =>
    rw [StreamScan.performAll, List.append_nil]
    exact h
  | cons call calls ih =>
    have hrest := ih (h.perform call)
    rw [List.append_assoc] at hrest
    exact hrest

/-- A file that cannot be opened is never open, and hands out nothing. -/
theorem perform_of_missing {failure : Failure} (hfresh : s.fresh = .error failure)
    (hclosed : s.handle = none) (call : Call) :
    handed (s.perform call).1 = [] ∧ (s.perform call).2 = s := by
  have hcurrent : s.current = .error failure := by
    rw [current, hclosed]
    exact hfresh
  cases call with
  | readInto target =>
    have hread : ByteSource.read s target.size = (.failed failure, s) := by
      show s.read target.size = _
      rw [FileSource.read, hcurrent]
    rw [FileSource.perform, StreamScan.readInto, hread]
    exact ⟨rfl, rfl⟩
  | readAt offset size =>
    rw [FileSource.perform, readAt, hcurrent]
    exact ⟨rfl, rfl⟩
  | opening =>
    rw [FileSource.perform, opened, hcurrent]
    exact ⟨rfl, rfl⟩
  | closing =>
    refine ⟨rfl, ?_⟩
    show { s with handle := none } = s
    rw [← hclosed]
  | path => exact ⟨rfl, rfl⟩

theorem performAll_of_missing {failure : Failure} (hfresh : s.fresh = .error failure)
    (hclosed : s.handle = none) (calls : List Call) :
    handed (StreamScan.performAll FileSource.perform s calls).1 = [] ∧
      (StreamScan.performAll FileSource.perform s calls).2 = s := by
  induction calls with
  | nil => exact ⟨rfl, rfl⟩
  | cons call calls ih =>
    obtain ⟨hnone, hsame⟩ := perform_of_missing hfresh hclosed call
    rw [StreamScan.performAll]
    simp only [hsame, handed_append, hnone, ih.1, ih.2, List.append_nil, and_self]

end

/-! ## Going on, and starting again -/

/-- A read after the calls of a log: it hands out what stands in the file behind the bytes that were
    handed out since the file was closed. -/
structure Continues (content : Bytes) (log : List Event) (target : Block) (bytes : Bytes)
    (answer : Reply × Block) : Prop where
  answer_eq : answer = (.ofBytes bytes, (bytes ++ target.toList.drop bytes.length).toArray)
  fits : bytes.length ≤ target.size
  inOrder : sinceClosed log ++ bytes <+: content
  complete : bytes = [] → sinceClosed log = content
  /-- Nothing is handed out twice if nothing was handed out before the file was closed. -/
  once : (∀ front back, log = front ++ .closed :: back → handed front = []) →
    handed log ++ bytes <+: content
  /-- It begins where the read before it stopped, unless the file was closed in between and that
      was not at the start. -/
  onward : ∀ front last again, log = front ++ .handed last :: List.replicate again .closed →
    ((sinceClosed log).length = (sinceClosed (front ++ [.handed last])).length ↔
      again = 0 ∨ sinceClosed (front ++ [.handed last]) = [])

/-- Where a read begins, and where the one before it stopped. -/
theorem begins_iff {log front : List Event} {last : Bytes} {again : Nat}
    (hlog : log = front ++ .handed last :: List.replicate again .closed) :
    (sinceClosed log).length = (sinceClosed (front ++ [.handed last])).length ↔
      again = 0 ∨ sinceClosed (front ++ [.handed last]) = [] := by
  have hsince : sinceClosed log =
      if again = 0 then sinceClosed (front ++ [.handed last]) else [] := by
    rw [← sinceClosed_replicate, hlog, List.append_assoc, List.singleton_append]
  rw [hsince]
  by_cases hnone : again = 0
  · rw [if_pos hnone]
    exact ⟨fun _ => Or.inl hnone, fun _ => rfl⟩
  · rw [if_neg hnone, List.length_nil, eq_comm, List.length_eq_zero_iff]
    exact ⟨Or.inr, fun h => h.resolve_left hnone⟩

theorem Standing.continues {content : Block} {log : List Event} {s : FileSource}
    (h : Standing content log s) {target : Block} (htarget : target ≠ #[]) :
    Continues content.toList log target (nextBytes content log target.size)
      ((StreamScan.readInto s target).1, (StreamScan.readInto s target).2.1) := by
  have hfits : (nextBytes content log target.size).length ≤ target.size := by
    rw [nextBytes, List.length_take]
    exact Nat.min_le_left _ _
  have hinOrder := h.append_nextBytes target.size
  refine ⟨?_, hfits, hinOrder, fun hnone => ?_, fun honce => ?_, fun _ _ _ => begins_iff⟩
  · rw [StreamScan.readInto, h.read_eq]
    simp only [Reply.fill_ofBytes hfits]
  · rw [nextBytes, List.take_eq_nil_iff, List.drop_eq_nil_iff] at hnone
    have hroom := Array.size_pos_iff.mpr htarget
    exact h.inOrder.eq_of_length_le (hnone.resolve_left (Nat.ne_of_gt hroom))
  · rw [← sinceClosed_eq_handed honce]
    exact hinOrder

/-- A file source is asked anything in any order, and then read.  If its address leads to no file,
    the read raises the failure that says so, and nothing was handed out.  Otherwise it goes on
    where the read before it stopped, or hands out nothing at the end of the file, unless the file
    was closed since that read, which had not stopped at the start: then it hands out the file from
    the start again. -/
theorem reads_continue (fileSystem : FileSystem) (address : String) (calls : List Call)
    {target : Block} (htarget : target ≠ #[]) :
    (∃ failure, (ofAddress fileSystem address).fresh = .error failure ∧
      handed (performAll perform (ofAddress fileSystem address) calls).1 = [] ∧
      (readInto (performAll perform (ofAddress fileSystem address) calls).2 target).1 =
        .failed failure) ∨
    ∃ content bytes, (ofAddress fileSystem address).fresh = .ok ⟨content, 0⟩ ∧
      Continues content.toList (performAll perform (ofAddress fileSystem address) calls).1 target
        bytes
        ((readInto (performAll perform (ofAddress fileSystem address) calls).2 target).1,
          (readInto (performAll perform (ofAddress fileSystem address) calls).2 target).2.1) := by
  cases hfresh : (ofAddress fileSystem address).fresh with
  | error failure =>
    obtain ⟨hnone, hsame⟩ := performAll_of_missing hfresh rfl calls
    refine Or.inl ⟨failure, rfl, hnone, ?_⟩
    rw [hsame]
    show ((ofAddress fileSystem address).read target.size).1 = _
    have hcurrent : (ofAddress fileSystem address).current = .error failure := hfresh
    rw [FileSource.read, hcurrent]
  | ok file =>
    obtain ⟨content, position⟩ := file
    obtain rfl : position = 0 := position_of_fresh hfresh
    have hstanding : Standing content [] (ofAddress fileSystem address) :=
      ⟨hfresh, hfresh, List.nil_prefix⟩
    exact Or.inr ⟨content, _, rfl, (hstanding.performAll calls).continues htarget⟩

/-- Three bytes, two of which were read before the file was closed. -/
theorem reads_continue_three :
    let fileSystem : FileSystem := ⟨fun _ => .file #[97, 98, 99]⟩
    let ran := performAll perform (ofAddress fileSystem "letters")
      [.readInto #[0, 0], .readAt 1 1, .closing]
    ran.1 = [.handed [97, 98], .closed] ∧
      ∃ content bytes, (ofAddress fileSystem "letters").fresh = .ok ⟨content, 0⟩ ∧
        Continues content.toList ran.1 #[0, 0] bytes
          ((readInto ran.2 #[0, 0]).1, (readInto ran.2 #[0, 0]).2.1) := by
  have htarget : (#[0, 0] : Block) ≠ #[] := by decide
  refine ⟨by rfl, ?_⟩
  rcases reads_continue ⟨fun _ => .file #[97, 98, 99]⟩ "letters"
    [.readInto #[0, 0], .readAt 1 1, .closing] htarget with ⟨failure, hfailed, -⟩ | hcontinues
  · exact nomatch hfailed
  · exact hcontinues

/-- When the file was closed after two of three bytes, reading on hands them out again. -/
theorem reads_restart :
    let ran := performAll perform (ofAddress ⟨fun _ => .file #[97, 98, 99]⟩ "letters")
      [.readInto #[0, 0], .closing, .readInto #[0, 0]]
    ran.1 = [.handed [97, 98], .closed, .handed [97, 98]] ∧
      ¬ handed ran.1 <+: [97, 98, 99] := by
  refine ⟨by rfl, ?_⟩
  show ¬ [97, 98, 97, 98] <+: [97, 98, 99]
  decide

end StreamScan.FileSource

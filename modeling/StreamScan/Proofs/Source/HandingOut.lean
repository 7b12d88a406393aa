import Mathlib.Data.List.ReduceOption
import StreamScan.Proofs.Source.Delivering
import StreamScan.Source.Chunks

/-!
# Handing out a payload once, and in order

A payload in memory and a sequence of chunks are read in blocks of any size.  The borders of the
blocks, those of the chunks and the portions do not line up, so that a remainder is carried from
one read to the next.

What a source has said so far is *heard*: the bytes that it handed out, one by one, and a `none`
wherever it answered *not yet*.  What is heard and what is left to be heard make up one list, which
no call changes: the bytes of the payload, or those of the chunks with a `none` in the place of each
empty chunk.  So no byte is lost and none comes twice, and the count zero, which says that nothing
is left, does not come before all of it was heard.

* **`readInto`** — a read that writes into a block.
* **`Buffer.Call`** — what a payload in memory can be asked.
* **`Conserves`** — a call hands out the front of what is left; `conserves_performAll` is the same
  for a run of calls, by induction.
* **`hands_out_once`** — both sources, after any calls.
-/

namespace StreamScan

/-! ## Reads into a block, and what is heard of them -/

/-- The block that was offered, with what a reply wrote at its start. -/
def Reply.fill (target : Block) : Reply → Block
  | .count _ written => target.overwrite 0 written
  | _ => target

/-- What is heard of a reply: the bytes that it hands out, or that there are none yet. -/
def Reply.heard : Reply → List (Option UInt8)
  | .count reported written => (written.take reported.toNat).map some
  | .notYet => [none]
  | .failed _ => []

theorem reduceOption_map_some (bytes : Bytes) : (bytes.map some).reduceOption = bytes := by
  rw [List.reduceOption, List.filterMap_map]
  exact List.filterMap_some

theorem Reply.heard_ofBytes (bytes : Bytes) : (ofBytes bytes).heard = bytes.map some := by
  rw [ofBytes, heard, Int.toNat_natCast, List.take_length]

/-- Bytes that fit are the first of the block, and those behind them stay as they were. -/
theorem Reply.fill_ofBytes {target : Block} {bytes : Bytes} (h : bytes.length ≤ target.size) :
    (ofBytes bytes).fill target = (bytes ++ target.toList.drop bytes.length).toArray := by
  rw [ofBytes, fill, ← Array.toList_inj, Block.toList_overwrite (by omega), List.take_zero,
    List.nil_append, Nat.zero_add]

section
variable {σ : Type}

/-- Reads into a block. -/
def readInto [ByteSource σ] (s : σ) (target : Block) : Reply × Block × σ :=
  let (reply, s) := ByteSource.read s target.size
  (reply, reply.fill target, s)

/-- What is heard of a read into a block, and the source after it. -/
def heardInto [ByteSource σ] (s : σ) (target : Block) : List (Option UInt8) × σ :=
  let (reply, _, s) := readInto s target
  (reply.heard, s)

/-- Makes calls one after the other, and joins what is heard of them. -/
def performAll {κ α : Type} (perform : σ → κ → List α × σ) (s : σ) : List κ → List α × σ
  | [] => ([], s)
  | call :: calls =>
    let (heard, s) := perform s call
    let (later, s) := performAll perform s calls
    (heard ++ later, s)

/-! ## What is left to be heard -/

/-- What is heard of a call is the front of what was left before, and `R` holds of the rest of
    it. -/
def Conserves (R : σ → List (Option UInt8) → Prop) (left : List (Option UInt8))
    (answer : List (Option UInt8) × σ) : Prop :=
  ∃ later, answer.1 ++ later = left ∧ R answer.2 later

/-- A run of calls conserves what each of them does. -/
theorem conserves_performAll {κ : Type} {perform : σ → κ → List (Option UInt8) × σ}
    {R : σ → List (Option UInt8) → Prop} {calls : List κ}
    (hperform : ∀ call ∈ calls, ∀ s left, R s left → Conserves R left (perform s call)) {s : σ}
    {left : List (Option UInt8)} (hs : R s left) :
    Conserves R left (performAll perform s calls) := by
  induction calls generalizing s left with
  | nil => exact ⟨left, rfl, hs⟩
  | cons call calls ih =>
    obtain ⟨middle, hfirst, hnext⟩ := hperform call List.mem_cons_self s left hs
    obtain ⟨later, hothers, hend⟩ :=
      ih (fun other hother => hperform other (List.mem_cons_of_mem _ hother)) hnext
    refine ⟨later, ?_, hend⟩
    rw [performAll, List.append_assoc, hothers, hfirst]

/-- The answers of a source that has so much left to be heard, and the state that it is left in. -/
inductive Hands (R : σ → List (Option UInt8) → Prop) (room : Nat) (left : List (Option UInt8)) :
    Reply × σ → Prop
  | notYet {s : σ} {later : List (Option UInt8)} (split : none :: later = left)
    (after : R s later) : Hands R room left (.notYet, s)
  | piece {s : σ} {bytes : Bytes} {later : List (Option UInt8)}
    (split : bytes.map some ++ later = left) (complete : bytes = [] → left = [])
    (fits : bytes.length ≤ room) (after : R s later) : Hands R room left (.ofBytes bytes, s)

/-- What a read into a block may answer, and leave in it, if `heard` was heard before of all that
    there is to be heard. -/
inductive Next (all heard : List (Option UInt8)) (target : Block) : Reply × Block → Prop
  | notYet (inOrder : heard ++ [none] <+: all) : Next all heard target (.notYet, target)
  | piece {bytes : Bytes} (inOrder : heard ++ bytes.map some <+: all)
    (fits : bytes.length ≤ target.size) (complete : bytes = [] → heard = all) :
    Next all heard target
      (.ofBytes bytes, (bytes ++ target.toList.drop bytes.length).toArray)

/-- A source that hands out a payload once and in order, after calls of which so much was heard. -/
structure HandsOutOnce [FiniteSource σ] (all : List (Option UInt8)) (payload : Bytes)
    (target : Block) (ran : List (Option UInt8) × σ) : Prop where
  inOrder : ran.1 <+: all
  handed : ran.1.reduceOption <+: payload
  counted : FiniteSource.remaining ran.2 + ran.1.reduceOption.length = payload.length
  next : Next all ran.1 target ((readInto ran.2 target).1, (readInto ran.2 target).2.1)

section
variable [ByteSource σ] {R : σ → List (Option UInt8) → Prop} {s : σ} {target : Block}
  {left : List (Option UInt8)}

theorem Hands.conserves (h : Hands R target.size left (ByteSource.read s target.size)) :
    Conserves R left (heardInto s target) := by
  rw [heardInto, readInto]
  generalize ByteSource.read s target.size = answer at h
  cases h with
  | notYet split after => exact ⟨_, split, after⟩
  | piece split complete fits after =>
    refine ⟨_, ?_, after⟩
    show (Reply.ofBytes _).heard ++ _ = left
    rw [Reply.heard_ofBytes]
    exact split

theorem Hands.next {all heard : List (Option UInt8)} (hall : heard ++ left = all)
    (h : Hands R target.size left (ByteSource.read s target.size)) :
    Next all heard target ((readInto s target).1, (readInto s target).2.1) := by
  rw [readInto]
  generalize ByteSource.read s target.size = answer at h
  cases h with
  | notYet split after =>
    rw [← hall, ← split]
    exact .notYet ((List.prefix_append_right_inj heard).mpr (List.prefix_append [none] _))
  | piece split complete fits after =>
    simp only [Reply.fill_ofBytes fits]
    refine .piece ?_ fits fun hnone => ?_
    · rw [← hall, ← split]
      exact (List.prefix_append_right_inj heard).mpr (List.prefix_append _ _)
    · rw [← hall, complete hnone, List.append_nil]

end

/-- A source hands out its payload if its reads hand out the front of what is left. -/
theorem Conserves.handsOutOnce [FiniteSource σ] {R : σ → List (Option UInt8) → Prop}
    {all : List (Option UInt8)} {payload : Bytes} (hpayload : all.reduceOption = payload)
    {target : Block} {ran : List (Option UInt8) × σ} (h : Conserves R all ran)
    (hremaining : ∀ s left, R s left → FiniteSource.remaining s = left.reduceOption.length)
    (hread : ∀ s left, R s left →
      Hands R target.size left (ByteSource.read s target.size)) :
    HandsOutOnce all payload target ran := by
  obtain ⟨left, hall, hafter⟩ := h
  have hbytes : ran.1.reduceOption ++ left.reduceOption = payload := by
    rw [← List.reduceOption_append, hall, hpayload]
  refine ⟨⟨left, hall⟩, ⟨_, hbytes⟩, ?_, (hread _ _ hafter).next hall⟩
  rw [hremaining _ _ hafter, ← hbytes, List.length_append, Nat.add_comm]

end

/-! ## A payload in memory -/

namespace Buffer

/-- What a payload in memory can be asked. -/
inductive Call where
  | readInto (target : Block)
  | take (size : Option Int)
  | readAt (offset size : Int)
  | remaining

/-- What is heard of a call, and the payload after it. -/
def perform (b : Buffer) : Call → List (Option UInt8) × Buffer
  | .readInto target => heardInto b target
  | .take size =>
    let (bytes, b) := b.take size
    (bytes.map some, b)
  | .readAt offset size =>
    match ByteSource.readAt? b with
    | some readAt => ([], (readAt offset size).2)
    | none => ([], b)
  | .remaining => ([], b)

/-- A payload has its bytes left to be heard. -/
def Left (positional : Bool) (stream : Bytes) (b : Buffer) (left : List (Option UInt8)) : Prop :=
  ∃ rest, Accounts positional stream b rest ∧ left = rest.map some

section
variable {positional : Bool} {stream : Bytes} {b : Buffer} {left : List (Option UInt8)}

theorem Left.hands (h : Left positional stream b left) {room : Nat} (hroom : 0 < room) :
    Hands (Left positional stream) room left (ByteSource.read b room) := by
  obtain ⟨rest, haccounts, rfl⟩ := h
  obtain ⟨hle, hpositive⟩ := haccounts.granted_requested hroom
  obtain ⟨htaken, hafter⟩ := haccounts.take (some (b.requested room))
  show Hands _ room _ (Reply.ofBytes (b.take (some (b.requested room))).1, _)
  rw [htaken]
  refine .piece ?_ (fun hnone => ?_) ?_ ⟨_, hafter, rfl⟩
  · rw [← List.map_append, List.take_append_drop]
  · by_contra hsome
    rw [List.map_eq_nil_iff] at hsome
    rcases List.take_eq_nil_iff.mp hnone with hzero | hnil
    · exact Nat.ne_of_gt (hpositive hsome) hzero
    · exact hsome hnil
  · rw [List.length_take]
    omega

/-- Every call hands out the front of what is left, if it hands out anything. -/
theorem Left.perform (h : Left positional stream b left) {call : Call}
    (hcall : ∀ target, call = .readInto target → target ≠ #[]) :
    Conserves (Left positional stream) left (b.perform call) := by
  cases call with
  | readInto target =>
    exact (h.hands (Array.size_pos_iff.mpr (hcall target rfl))).conserves
  | take size =>
    obtain ⟨rest, haccounts, rfl⟩ := h
    obtain ⟨htaken, hafter⟩ := haccounts.take size
    refine ⟨_, ?_, _, hafter, rfl⟩
    show (b.take size).1.map some ++ _ = _
    rw [htaken, ← List.map_append, List.take_append_drop]
  | readAt offset size =>
    refine ⟨left, ?_, ?_⟩
    · rw [Buffer.perform]
      cases ByteSource.readAt? b <;> rfl
    · have hsame : (b.perform (.readAt offset size)).2 = b := by
        show (match (if b.servesPositions then some b.readAt else none) with
          | some readAt => (([] : List (Option UInt8)), (readAt offset size).2)
          | none => ([], b)).2 = b
        cases b.servesPositions with
        | false => rfl
        | true =>
          show (b.readAt offset size).2 = b
          rw [readAt]
          split <;> rfl
      rw [hsame]
      exact h
  | remaining => exact ⟨left, rfl, h⟩

theorem Left.remaining_eq (h : Left positional stream b left) :
    b.remaining = left.reduceOption.length := by
  obtain ⟨rest, haccounts, rfl⟩ := h
  rw [haccounts.remaining_eq, reduceOption_map_some]

end

end Buffer

/-! ## A sequence of chunks -/

namespace Chunks

/-- What is heard of chunks: their bytes, and once for each empty chunk that there are none yet. -/
def answers (chunks : List Bytes) : List (Option UInt8) :=
  chunks.flatMap fun chunk => if chunk = [] then [none] else chunk.map some

/-- What a sequence of chunks that breaks off nowhere has left to be heard. -/
def Left (s : Chunks) (left : List (Option UInt8)) : Prop :=
  s.failure = none ∧ left = s.pending.map some ++ answers s.chunks

section
variable {s : Chunks} {left : List (Option UInt8)} {room : Nat}

theorem hands_handOut (hfailure : s.failure = none) (hpending : s.pending ≠ []) (hroom : 0 < room) :
    Hands Left room (s.pending.map some ++ answers s.chunks) (s.handOut room) := by
  refine .piece ?_ (fun hnone => ?_) ?_ ⟨hfailure, rfl⟩
  · show _ ++ ((s.pending.drop room).map some ++ answers s.chunks) = _
    rw [← List.append_assoc, ← List.map_append, List.take_append_drop]
  · rcases List.take_eq_nil_iff.mp hnone with hzero | hnil
    · exact absurd hzero (Nat.ne_of_gt hroom)
    · exact absurd hnil hpending
  · rw [List.length_take]
    exact Nat.min_le_left _ _

theorem Left.hands (h : Left s left) (hroom : 0 < room) :
    Hands Left room left (ByteSource.read s room) := by
  show Hands Left room left (s.read room)
  obtain ⟨pending, chunks, failure⟩ := s
  obtain ⟨hfailure, rfl⟩ := h
  obtain rfl : failure = none := hfailure
  cases pending with
  | cons byte pending => exact hands_handOut rfl (List.cons_ne_nil _ _) hroom
  | nil =>
    cases chunks with
    | nil =>
      have hend : ([] : Bytes).map some ++ [] = [] := rfl
      exact .piece hend (fun _ => rfl) (Nat.zero_le _) ⟨rfl, rfl⟩
    | cons chunk chunks =>
      cases chunk with
      | nil => exact .notYet rfl ⟨rfl, rfl⟩
      | cons byte chunk =>
        exact hands_handOut (s := ⟨byte :: chunk, chunks, none⟩) rfl (List.cons_ne_nil _ _) hroom

theorem reduceOption_answers (chunks : List Bytes) :
    (answers chunks).reduceOption = chunks.flatten := by
  induction chunks with
  | nil => rfl
  | cons chunk chunks ih =>
    rw [answers, List.flatMap_cons, List.reduceOption_append, List.flatten_cons]
    refine congrArg₂ _ ?_ ih
    split
    · rename_i hnil
      rw [hnil]
      rfl
    · exact reduceOption_map_some chunk

theorem Left.remaining_eq (h : Left s left) : s.remaining = left.reduceOption.length := by
  obtain ⟨-, rfl⟩ := h
  rw [List.reduceOption_append, reduceOption_map_some, reduceOption_answers, List.length_append,
    remaining]

end

end Chunks

/-! ## Both sources -/

/-- A payload in memory and a sequence of chunks hand out their bytes once and in order, whatever
    they were asked before, in blocks that are not empty.  A read answers with bytes that fit, at
    the start of the block, or with *not yet*, which leaves the block as it was; a sequence of
    chunks says so exactly in the place of each empty chunk.  Only when all was handed out does a
    read hand out nothing. -/
theorem hands_out_once (payload : Bytes) {portion : Option Int} (servesPositions : Bool)
    (hportion : ∀ size, portion = some size → 0 < size) {calls : List Buffer.Call}
    (hcalls : ∀ target, .readInto target ∈ calls → target ≠ #[]) (chunks : List Bytes)
    {targets : List Block} (htargets : ∀ target ∈ targets, target ≠ #[]) {target : Block}
    (htarget : target ≠ #[]) :
    HandsOutOnce (payload.map some) payload target
        (performAll Buffer.perform (Buffer.ofPayload payload portion servesPositions) calls) ∧
      HandsOutOnce (Chunks.answers chunks) chunks.flatten target
        (performAll heardInto (Chunks.ofList chunks none) targets) := by
  have hroom := Array.size_pos_iff.mpr htarget
  constructor
  · refine Conserves.handsOutOnce (R := Buffer.Left servesPositions payload)
      (reduceOption_map_some payload) (conserves_performAll (fun call hcall s left hs => ?_)
        ⟨payload, ⟨rfl, rfl, hportion, rfl⟩, rfl⟩) (fun s left hs => hs.remaining_eq)
      fun s left hs => hs.hands hroom
    exact hs.perform fun into hinto => hcalls into (hinto ▸ hcall)
  · refine Conserves.handsOutOnce (R := Chunks.Left) (Chunks.reduceOption_answers chunks)
      (conserves_performAll (fun into hinto s left hs => ?_) ⟨rfl, rfl⟩)
      (fun s left hs => hs.remaining_eq) fun s left hs => hs.hands hroom
    exact (hs.hands (Array.size_pos_iff.mpr (htargets into hinto))).conserves

/-- Three bytes in portions of two, with a positional read in between; and the same bytes in chunks,
    one of them empty. -/
theorem hands_out_once_three :
    (performAll Buffer.perform (Buffer.ofPayload [1, 2, 3] (some 2) true)
        [.readInto #[0, 0, 0], .readAt 0 3]).1 = [some 1, some 2] ∧
      HandsOutOnce [some 1, some 2, some 3] [1, 2, 3] #[0]
        (performAll Buffer.perform (Buffer.ofPayload [1, 2, 3] (some 2) true)
          [.readInto #[0, 0, 0], .readAt 0 3]) ∧
      (performAll heardInto (Chunks.ofList [[1], [], [2, 3]] none) [#[0, 0], #[0]]).1 =
        [some 1, none] ∧
      HandsOutOnce [some 1, none, some 2, some 3] [1, 2, 3] #[0]
        (performAll heardInto (Chunks.ofList [[1], [], [2, 3]] none) [#[0, 0], #[0]]) := by
  have hportion : ∀ size, some 2 = some size → (0 : Int) < size := by
    rintro _ ⟨⟩
    decide
  have hcalls : ∀ target, .readInto target ∈ [Buffer.Call.readInto #[0, 0, 0], .readAt 0 3] →
      target ≠ #[] := by
    rintro _ (_ | ⟨_, _ | ⟨_, ⟨⟩⟩⟩)
    decide
  have htargets : ∀ target ∈ ([#[0, 0], #[0]] : List Block), target ≠ #[] := by decide
  have htarget : (#[0] : Block) ≠ #[] := by decide
  have hboth :=
    hands_out_once [1, 2, 3] true hportion hcalls [[1], [], [2, 3]] htargets htarget
  exact ⟨rfl, hboth.1, rfl, hboth.2⟩

end StreamScan

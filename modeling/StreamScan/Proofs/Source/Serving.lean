import StreamScan.Proofs.Feed.Interleaving
import StreamScan.Proofs.Source.Supplying
import StreamScan.Source.File

/-!
# Inputs, files and feeds deliver what they hold

What each of the sources that a program reads has still to hand out can be read off its state: an
input that the operating system has opened, a file that is open, and the pipe that a copy task fills
with the portions of an input.  That is its account.  A file ends when everything was handed out;
an input ends there or breaks off, and so does the feed that copies it.

* **`InputStream.supply`** — an open input, however it ends.
* **`FileSource.wellBehaved`** — an open file, with its positional reads.
* **`Feed.supply`** — a feed, unless its producer ends as a broken write does.
-/

namespace StreamScan

/-! ## Inputs -/

namespace InputStream

/-- What an open input has still to hand out. -/
structure Accounts (input : Input) (s : InputStream) (rest : Bytes) : Prop where
  input_eq : s.input = input
  rest_eq : rest = input.bytes.drop s.position

theorem supply (input : Input) :
    Supply (fun s _ rest => Accounts input s rest) (fun s => Accounts input s [])
      input.failure := by
  intro s idle room rest h hroom
  have hrest := h.rest_eq
  show Supplies _ _ _ room idle rest (s.read room)
  rw [read, h.input_eq, ← hrest]
  by_cases hdone : rest = []
  · subst hdone
    cases hfailure : input.failure with
    | some failure => exact .failed rfl rfl h
    | none =>
      simp only [List.take_nil]
      refine .ended rfl rfl (?_ : Accounts input ⟨input, s.position⟩ [])
      exact ⟨rfl, hrest⟩
  · obtain ⟨byte, back, rfl⟩ := List.exists_cons_of_ne_nil hdone
    refine .piece (List.take_append_drop room (byte :: back)) ?_ ?_ ⟨rfl, ?_⟩
    · rw [ne_eq, List.take_eq_nil_iff, not_or]
      exact ⟨Nat.ne_of_gt hroom, hdone⟩
    · rw [List.length_take]
      exact Nat.min_le_left _ _
    · show _ = input.bytes.drop (s.position + ((byte :: back).take room).length)
      rw [hrest, drop_add_length_take]

/-- At the start an input has all of its bytes to hand out. -/
theorem accounts_ofInput (input : Input) : Accounts input (ofInput input) input.bytes := ⟨rfl, rfl⟩

/-- An input that ends delivers its bytes. -/
theorem wellBehaved {input : Input} (hends : input.error = none) :
    WellBehaved false input.bytes (ofInput input) := by
  have hsupply := supply input
  rw [Input.failure, hends] at hsupply
  exact ⟨_, hsupply.account fun _ => rfl, accounts_ofInput input⟩

end InputStream

/-! ## Open files -/

namespace FileSource

/-- What an open file has still to hand out. -/
def Accounts (stream : Bytes) (s : FileSource) (rest : Bytes) : Prop :=
  ∃ file, s.handle = some file ∧ file.content.toList = stream ∧ rest = stream.drop file.position

theorem account (stream : Bytes) : Account true stream fun s _ rest => Accounts stream s rest where
  read {s idle room rest} h hroom := by
    obtain ⟨file, hhandle, hcontent, hrest⟩ := h
    have hcurrent : s.current = .ok file := by rw [current, hhandle]
    have hbytes : (file.content.extract file.position (file.position + room)).toList =
        rest.take room := by
      rw [Block.toList_extract_add, hcontent, hrest]
    have hread : ByteSource.read s room = (.ofBytes (rest.take room),
        { s with
          handle := some { file with position := file.position + (rest.take room).length } }) := by
      show s.read room = _
      rw [FileSource.read, hcurrent]
      simp only [hbytes]
    rw [hread]
    refine ⟨0, rest.drop room, Reply.delivers_take (Nat.le_refl room) (fun _ => hroom) idle, _, rfl,
      hcontent, ?_⟩
    show rest.drop room = stream.drop (file.position + (rest.take room).length)
    rw [hrest, drop_add_length_take]
  sequential _ hpositional := nomatch hpositional
  readAt {s idle rest} h _ := by
    obtain ⟨file, hhandle, hcontent, hrest⟩ := h
    have hcurrent : s.current = .ok file := by rw [current, hhandle]
    refine ⟨s.readAt, rfl, fun offset length hle =>
      ⟨{ s with handle := some file }, ?_, file, rfl, hcontent, hrest⟩⟩
    have hnatural : ¬ ((offset : Int) < 0 ∨ (length : Int) < 0) := by omega
    rw [readAt, hcurrent]
    simp only [if_neg hnatural]
    rw [← Block.toList_slice_add hcontent hle]
    rfl

/-- A file that was opened delivers its content. -/
theorem wellBehaved {s : FileSource} {file : OpenFile} (hhandle : s.handle = some file)
    (hstart : file.position = 0) : WellBehaved true file.content.toList s :=
  ⟨_, account _, file, hhandle, rfl, by rw [hstart, List.drop_zero]⟩

end FileSource

/-! ## Feeds -/

/-- The portions of a byte string make it up. -/
theorem flatten_portions (data : Bytes) : (portions data).flatten = data := by
  fun_induction portions data with
  | case1 => rfl
  | case2 data _ ih => rw [List.flatten_cons, ih, List.take_append_drop]

namespace Feed

variable {failure : Option Failure}

/-- What a feed has still to hand out before its producer ends in this way. -/
def Accounts (failure : Option Failure) (f : Feed) (rest : Bytes) : Prop :=
  ∃ left taken, Offers failure left taken f ∧ [] ∉ left ∧ left.flatten = rest

theorem supply (hfailure : ∀ g, failure = some g → g.kind ≠ .brokenPipe) :
    Supply (fun f _ rest => Accounts failure f rest) (fun f => Accounts failure f [])
      (failure.map .producerFailed) := by
  intro f idle room rest h hroom
  obtain ⟨left, taken, hoffers, hnonempty, hrest⟩ := h
  show Supplies _ _ _ room idle rest (f.read room)
  rcases hoffers.read hfailure room with
    ⟨chunk, others, rfl, hpiece, hoffers'⟩ | ⟨rfl, hoffers', hend⟩
  · have hsome : chunk ≠ [] := fun hnil => hnonempty (hnil ▸ List.mem_cons_self)
    have hothers : [] ∉ others := fun hmem => hnonempty (List.mem_cons_of_mem _ hmem)
    have hsplit : chunk.take room ++ (chunk.drop room ++ others.flatten) = rest := by
      rw [← List.append_assoc, List.take_append_drop, ← List.flatten_cons, hrest]
    rw [show f.read room = (_, (f.read room).2) from Prod.ext hpiece rfl]
    refine .piece hsplit ?_ ?_
      ⟨_, _, hoffers', nil_not_mem_leftOver hothers, flatten_leftOver _ _⟩
    · rw [ne_eq, List.take_eq_nil_iff, not_or]
      exact ⟨Nat.ne_of_gt hroom, hsome⟩
    · rw [List.length_take]
      exact Nat.min_le_left _ _
  · have hafter : Accounts failure (f.read room).2 [] :=
      ⟨[], taken, hoffers', List.not_mem_nil, rfl⟩
    rw [show f.read room = (_, (f.read room).2) from Prod.ext hend rfl]
    cases failure with
    | none => exact .ended hrest.symm rfl hafter
    | some failure => exact .failed hrest.symm rfl hafter

/-- At the start a feed has all of its input to hand out. -/
theorem accounts_ofInput (input : Input) :
    Accounts input.failure (.ofProducer (.ofInput input)) input.bytes := by
  refine ⟨_, 0, offers_ofProducer (.ofInput input), (Producer.ofInput input).nil_not_mem, ?_⟩
  exact List.flatten_filter_not_isEmpty.trans (flatten_portions input.bytes)

/-- When nothing is left of the chunks and the reader leaves, the copy task ends as its producer
    does. -/
theorem Accounts.released {f : Feed} (h : Accounts failure f []) :
    ∃ copied, f.released.outcome = some (resultOf failure copied) := by
  obtain ⟨left, taken, hoffers, hnonempty, hrest⟩ := h
  have hnone : left = [] := by
    refine List.eq_nil_iff_forall_not_mem.mpr fun chunk hmem => ?_
    exact hnonempty (List.flatten_eq_nil_iff.mp hrest chunk hmem ▸ hmem)
  exact ⟨taken, hoffers.released.1 hnone⟩

end Feed

end StreamScan

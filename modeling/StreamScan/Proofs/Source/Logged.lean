import StreamScan.Proofs.Source.Recorded

/-!
# Logged sources

A record of the bytes that a source has handed out does not say how they came.  A logged source is
any source together with all its replies so far.  It can be mapped to the source inside, and to the
recorded source, since the replies say which bytes were handed out.
-/

namespace StreamScan

/-- A source and its replies, the first one first. -/
structure Logged (σ : Type) where
  source : σ
  replies : List Reply

namespace Logged

variable {σ : Type}

/-- A source that has not been read yet. -/
def ofSource (source : σ) : Logged σ := ⟨source, []⟩

/-- The bytes of the replies. -/
def handed (s : Logged σ) : Bytes := s.replies.flatMap Recorded.handedBy

/-- The source with the record of its bytes. -/
def toRecorded (s : Logged σ) : Recorded σ := ⟨s.source, s.handed⟩

variable [ByteSource σ]

instance : ByteSource (Logged σ) where
  read s room :=
    let (reply, source) := ByteSource.read s.source room
    (reply, ⟨source, s.replies ++ [reply]⟩)
  readAt? s := (ByteSource.readAt? s.source).map fun readAt offset size =>
    let (answer, source) := readAt offset size
    (answer, ⟨source, s.replies⟩)

theorem read_eq (s : Logged σ) (room : Nat) :
    ByteSource.read s room = ((ByteSource.read s.source room).1,
      ⟨(ByteSource.read s.source room).2, s.replies ++ [(ByteSource.read s.source room).1]⟩) := rfl

theorem sourceMap_source : SourceMap (source : Logged σ → σ) where
  read _ _ := rfl
  readAt? s := by
    show ByteSource.readAt? s.source = ((ByteSource.readAt? s.source).map _).map _
    cases ByteSource.readAt? s.source with
    | none => rfl
    | some readAt => rfl

theorem sourceMap_toRecorded : SourceMap (toRecorded : Logged σ → Recorded σ) where
  read s room := by
    rw [Recorded.read_eq, read_eq, toRecorded, toRecorded, handed, handed, List.flatMap_append,
      List.flatMap_singleton]
  readAt? s := by
    show (ByteSource.readAt? s.source).map _ = ((ByteSource.readAt? s.source).map _).map _
    cases ByteSource.readAt? s.source with
    | none => rfl
    | some readAt => rfl

end Logged

end StreamScan

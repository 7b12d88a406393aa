import StreamScan.Engine

/-!
# Playback — an engine that answers what it is told

A playback engine has a list of turns.  Each search takes the next one: it reads so many code
points, or as many as there are, and gives the answer that the turn names, whatever it read.
When no turn is left, nothing is found any more.
-/

namespace StreamScan

/-- One search of a playback engine. -/
structure PlaybackTurn where
  pulls : Nat
  answer : Option Location
deriving DecidableEq, Repr

/-- An engine that answers what it is told. -/
structure PlaybackEngine where
  turns : List PlaybackTurn
deriving DecidableEq, Repr

namespace PlaybackEngine

/-- Reads up to so many code points and gives an answer. -/
def answerAfter {ρ : Type} [CodepointReader ρ] (answer : Option Location) :
    Nat → ρ → Except Failure (Option Location) × ρ
  | 0, r => (.ok answer, r)
  | pulls + 1, r =>
    match CodepointReader.next r with
    | (.error failure, r) => (.error failure, r)
    | (.ok none, r) => (.ok answer, r)
    | (.ok (some _), r) => answerAfter answer pulls r

/-- Plays the next turn. -/
def find {ρ : Type} [CodepointReader ρ] (e : PlaybackEngine) (r : ρ) :
    Except Failure (Option Location) × PlaybackEngine × ρ :=
  match e.turns with
  | [] => (.ok none, e, r)
  | turn :: turns =>
    let (answer, r) := answerAfter turn.answer turn.pulls r
    (answer, ⟨turns⟩, r)

instance {ρ : Type} [CodepointReader ρ] : MatchEngine PlaybackEngine ρ where
  find := find

end PlaybackEngine

end StreamScan

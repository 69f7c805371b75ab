import Chronicle.Land.Basic

/-!
# Replays

A replay takes a land through a recording from the first tick to the last.
The state is rebuilt from the metadata record, and its hash compared with the
recorded initial one before the first tick.
-/

namespace Chronicle

/-- A replay under way. -/
structure Replay (σ : Type) where
  land : Land σ
  lastTick : Option Tick

namespace Replay

variable {σ : Type}

/-- Begins a replay with the state rebuilt from the metadata record. -/
def start (rules : Rules σ) (source : Source) (strict : Bool)
    (rebuild : Recording.Metadata → σ) : Except LandError (Replay σ) := do
  let land ← Land.replay rules source strict (rebuild source.metadata)
  let actual := rules.fingerprint land.state
  match source.metadata.initialHash with
  | none => return ⟨land, source.lastTick?⟩
  | some recorded =>
      if recorded = actual then return ⟨land, source.lastTick?⟩
      else if strict then throw (.initialStateMismatch recorded actual)
      else
        let noted := land.updateSummary fun summary => { summary with initialMismatch := true }
        return ⟨noted, source.lastTick?⟩

/-- Whether the last recorded tick has been replayed. -/
def isFinished (replay : Replay σ) : Bool :=
  match replay.lastTick with
  | some last => last < replay.land.nextTick
  | none => true

/-- Replays the next recorded tick; past the end there is none. -/
def step (rules : Rules σ) (replay : Replay σ) :
    Except LandError (Option TickReport) × Replay σ :=
  if replay.isFinished then (.ok none, replay)
  else
    let stepped := replay.land.step rules
    (stepped.result.map some, { replay with land := stepped.land })

/-- The number of ticks that are still to be replayed. -/
def remaining (replay : Replay σ) : Nat :=
  match replay.lastTick with
  | some last => last.toNat + 1 - replay.land.nextTick.toNat
  | none => 0

/-- Replays at most some ticks, up to the end or the first error; before each
tick it is looked up whether the replay is cancelled. -/
def runFor (rules : Rules σ) (cancelledBefore : Tick → Bool) :
    Nat → Replay σ → Except LandError ReplaySummary
  | 0, replay => replay.land.replaySummary
  | fuel + 1, replay =>
      if replay.isFinished then replay.land.replaySummary
      else if cancelledBefore replay.land.nextTick then
        (replay.land.updateSummary fun summary =>
          { summary with cancelled := true }).replaySummary
      else
        let stepped := replay.land.step rules
        match stepped.result with
        | .ok _ => runFor rules cancelledBefore fuel { replay with land := stepped.land }
        | .error error => .error error

/-- Replays every remaining tick, unless the replay is cancelled before one. -/
def run (rules : Rules σ) (cancelledBefore : Tick → Bool) (replay : Replay σ) :
    Except LandError ReplaySummary :=
  replay.runFor rules cancelledBefore (replay.remaining + 1)

end Replay
end Chronicle

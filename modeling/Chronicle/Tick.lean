import Chronicle.Numbering
import Chronicle.Registry

/-!
# Ticks

A tick executes its items in order and then the update of the land.  A handler
that fails does not stop the tick, and what it emitted before is published.
Publishing gives each event its sequence number, hands it to the listener and
adds it to the record; only a lack of numbers aborts a tick.
-/

namespace Chronicle

/-- Running totals over ticks. -/
structure TickStats where
  ticks : Nat := 0
  items : Nat := 0
  failures : Nat := 0
  events : Nat := 0
  deriving Repr, DecidableEq, Inhabited

/-- What a tick executed and emitted. -/
structure TickOutcome where
  tick : Tick
  executed : List Item
  serverEvents : List Recording.ServerEvent
  failures : Nat
  deriving DecidableEq, Inhabited

namespace TickOutcome

/-- The frame that records a tick, with the hash of the state after it. -/
def toFrame (outcome : TickOutcome) (stateHash : Option String) : Recording.Frame :=
  let records := outcome.executed.map (Item.toRecord outcome.tick)
  { tick := outcome.tick
    actions := records.filterMap fun | .action input => some input | _ => none
    clientEvents := records.filterMap fun | .clientEvent input => some input | _ => none
    serverEvents := outcome.serverEvents
    lifecycleEvents := records.filterMap fun | .lifecycle event => some event | _ => none
    stateHash := stateHash }

end TickOutcome

/-- A tick under way: the state, the counter, the events recorded and those
handed to the listener so far, and the failures so far. -/
structure TickRun (σ : Type) where
  state : σ
  numbering : Numbering
  recorded : List Recording.ServerEvent := []
  heard : List Event := []
  failures : Nat := 0

namespace TickRun

variable {σ : Type}

/-- The record of an event published in a tick. -/
def record (tick : Tick) (sequence : Sequence) (event : Event) : Recording.ServerEvent :=
  ⟨.serverEvent, sequence, tick, event.type, event.payload, event.target.toRecord⟩

/-- Publishes events in order, as long as there are numbers for them. -/
def publish (tick : Tick) (run : TickRun σ) : List Event → Except LandError Unit × TickRun σ
  | [] => (.ok (), run)
  | event :: rest =>
      match run.numbering.issue with
      | .error error => (.error error, run)
      | .ok (sequence, numbering) =>
          let published :=
            { run with
              numbering := numbering
              recorded := run.recorded ++ [record tick sequence event]
              heard := run.heard ++ [event] }
          publish tick published rest

/-- Runs an effect within a tick and publishes what it emitted. -/
def perform (tick : Tick) (effect : Effect σ Unit) (run : TickRun σ) :
    Except LandError Unit × TickRun σ :=
  let (result, scene) := effect.perform run.state
  let failed :=
    match result with
    | .ok _ => 0
    | .error _ => 1
  publish tick { run with state := scene.state, failures := run.failures + failed } scene.emitted

/-- Runs effects within a tick one after the other, up to a lack of numbers. -/
def performAll (tick : Tick) (run : TickRun σ) :
    List (Effect σ Unit) → Except LandError Unit × TickRun σ
  | [] => (.ok (), run)
  | effect :: rest =>
      match run.perform tick effect with
      | (.ok _, run) => performAll tick run rest
      | (.error error, run) => (.error error, run)

end TickRun

namespace Rules

variable {σ : Type}

/-- The effects of a tick in order: the items', and then the update's. -/
def effects (rules : Rules σ) (tick : Tick) (items : List Item) : List (Effect σ Unit) :=
  items.map (fun item => rules.registry.dispatch (.ofItem tick item) item) ++
    [rules.update (.ofTick tick)]

end Rules

/-- A tick that has come to an end, successfully or not. -/
structure ExecutedTick (σ : Type) where
  result : Except LandError TickOutcome
  state : σ
  numbering : Numbering
  stats : TickStats
  heard : List Event

/-- Executes a tick, in whatever order its items are given: that they ascend is asserted
only where assertions for debugging are built in, and here they are not.  When the tick is
aborted, the state and the counter stay as far as they had come, and of the totals only the
events count. -/
def Rules.execute {σ : Type} (rules : Rules σ) (tick : Tick) (items : List Item) (state : σ)
    (numbering : Numbering) (stats : TickStats) : ExecutedTick σ :=
  let (result, run) :=
    TickRun.performAll tick ⟨state, numbering, [], [], 0⟩ (rules.effects tick items)
  let published := { stats with events := stats.events + run.recorded.length }
  match result with
  | .error error => ⟨.error error, run.state, run.numbering, published, run.heard⟩
  | .ok _ =>
      { result := .ok ⟨tick, items, run.recorded, run.failures⟩
        state := run.state
        numbering := run.numbering
        stats :=
          { published with
            ticks := stats.ticks + 1
            items := stats.items + items.length
            failures := stats.failures + run.failures }
        heard := run.heard }

end Chronicle

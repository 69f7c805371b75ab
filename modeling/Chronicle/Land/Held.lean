import Chronicle.Land.Basic

/-!
# Lands held directly

Whoever holds a land directly also holds the resolutions that it has started,
applies what becomes of them, and listens to its events.
-/

namespace Chronicle

/-- A land with the resolutions that were started and not yet applied, in the
order in which they finish, and the events heard in each tick. -/
structure HeldLand (σ : Type) where
  land : Land σ
  running : List Resolution := []
  heard : Log (Tick × Event) := ∅

namespace HeldLand

variable {σ : Type}

/-- Submits an inbound and keeps the resolution that is started, if any. -/
def submit (rules : Rules σ) (inbound : Inbound) (held : HeldLand σ) :
    Except LandError Admission × HeldLand σ :=
  let (result, land) := held.land.submit rules inbound
  match result with
  | .ok (.resolving resolution) =>
      (result, { held with land := land, running := held.running ++ [resolution] })
  | _ => (result, { held with land := land })

/-- Applies a completion that comes from elsewhere. -/
def complete (completion : Completion) (held : HeldLand σ) :
    Except LandError Sequence × HeldLand σ :=
  let (result, land) := held.land.complete completion
  (result, { held with land := land })

/-- Applies running resolutions in order until the land waits for none: the
outcome of each, the land, and the resolutions that are left. -/
def settleFrom (chance : Chance) (land : Land σ) :
    List Resolution → List (Except LandError Sequence) × Land σ × List Resolution
  | [] => ([], land, [])
  | resolution :: rest =>
      if land.resolving = 0 then ([], land, resolution :: rest)
      else
        let (result, land) := land.complete (resolution.run land.id chance)
        let (results, land, left) := settleFrom chance land rest
        (result :: results, land, left)

/-- Applies running resolutions, with the outcome of each. -/
def settle (chance : Chance) (held : HeldLand σ) : List (Except LandError Sequence) × HeldLand σ :=
  let (results, land, left) := settleFrom chance held.land held.running
  (results, { held with land := land, running := left })

/-- Executes the next tick and keeps the events that were heard. -/
def step (rules : Rules σ) (held : HeldLand σ) : Except LandError TickReport × HeldLand σ :=
  let stepped := held.land.step rules
  let heard := stepped.heard.map fun event => (held.land.nextTick, event)
  (stepped.result, { held with land := stepped.land, heard := held.heard.append heard })

end HeldLand
end Chronicle

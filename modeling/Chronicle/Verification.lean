import Chronicle.Error

/-!
# Verification

A replayed tick is compared with its recorded frame: the hash of the state,
and the emitted events by type, payload and target.  A differing hash is an
error when the replay is strict.
-/

namespace Chronicle

/-- The outcome of comparing a replayed hash with the recorded one. -/
inductive Verification where
  | agrees
  | differs (recorded actual : String)
  | notRecorded
  deriving Repr, DecidableEq, Inhabited

namespace Verification

/-- Compares the hash of a replayed tick with the recorded one. -/
def check (strict : Bool) (tick : Tick) (recorded : Option String) (actual : String) :
    Except LandError Verification :=
  match recorded with
  | none => .ok .notRecorded
  | some recorded =>
      if recorded = actual then .ok .agrees
      else if strict then .error (.hashMismatch tick recorded actual)
      else .ok (.differs recorded actual)

/-- Whether two events agree in type, payload and target. -/
def eventsAgree (a b : Recording.ServerEvent) : Bool :=
  a.type == b.type && a.payload.agrees b.payload && a.target == b.target

/-- Whether two lists of events agree one by one. -/
def allEventsAgree : (recorded emitted : List Recording.ServerEvent) → Bool
  | [], [] => true
  | a :: recorded, b :: emitted => eventsAgree a b && allEventsAgree recorded emitted
  | _, _ => false

end Verification

/-- Totals of a replay. -/
structure ReplaySummary where
  ticks : Nat := 0
  hashMatches : Nat := 0
  mismatches : List Tick := []
  withoutHash : Nat := 0
  eventMismatches : List Tick := []
  initialMismatch : Bool := false
  cancelled : Bool := false
  deriving Repr, DecidableEq, Inhabited

namespace ReplaySummary

/-- Whether the replay came to its end and found no difference. -/
def passed (summary : ReplaySummary) : Bool :=
  summary.mismatches.isEmpty && summary.eventMismatches.isEmpty &&
    !summary.initialMismatch && !summary.cancelled

/-- Counts a replayed tick, given whether its events agree and how its hash
compares; one that failed the check counts as a mismatch. -/
def count (summary : ReplaySummary) (tick : Tick) (eventsAgree : Bool)
    (verification : Except LandError Verification) : ReplaySummary :=
  let counted :=
    { summary with
      ticks := summary.ticks + 1
      eventMismatches :=
        if eventsAgree then summary.eventMismatches else summary.eventMismatches ++ [tick] }
  match verification with
  | .ok .agrees => { counted with hashMatches := counted.hashMatches + 1 }
  | .ok (.differs _ _) => { counted with mismatches := counted.mismatches ++ [tick] }
  | .ok .notRecorded => { counted with withoutHash := counted.withoutHash + 1 }
  | .error _ => { counted with mismatches := counted.mismatches ++ [tick] }

end ReplaySummary
end Chronicle

import Chronicle.Proofs.Tick
import Chronicle.Verification

/-!
# Ticks that agree with their record

Every value agrees with itself, so events that are the same agree, and a tick
that comes to the recorded hash with the same events counts as a match.
-/

namespace Chronicle

namespace Json

/-- A number agrees with itself. -/
theorem Number.agrees_refl (number : Number) : number.agrees number = true := by
  cases number with
  | integer value fits => exact beq_self_eq_true value
  | decimal value finite =>
      rw [Number.agrees, Ieee.Double.agrees, beq_self_eq_true, Bool.true_or]

mutual

/-- A value agrees with itself. -/
theorem agrees_refl : (value : Json) → value.agrees value = true
  | .null => rfl
  | .bool value => by rw [agrees, beq_self_eq_true]
  | .number value => by rw [agrees, Number.agrees_refl]
  | .string value => by rw [agrees, beq_self_eq_true]
  | .array items => by rw [agrees, agreesItems_refl items]
  | .object members => by rw [agrees, agreesMembers_refl members]

/-- A list of values agrees with itself. -/
theorem agreesItems_refl : (items : List Json) → agreesItems items items = true
  | [] => rfl
  | item :: rest => by rw [agreesItems, agrees_refl item, agreesItems_refl rest, Bool.and_self]

/-- A list of members agrees with itself. -/
theorem agreesMembers_refl : (members : List (String × Json)) →
    agreesMembers members members = true
  | [] => rfl
  | (key, value) :: rest => by
      rw [agreesMembers, beq_self_eq_true, agrees_refl value, agreesMembers_refl rest]
      rfl

end

end Json

namespace Verification

open Recording (ServerEvent)

/-- Events that are the same agree. -/
theorem eventsAgree_of_same
    {recorded emitted : ServerEvent}
    (same : recorded.Same emitted) :
    eventsAgree recorded emitted = true := by
  rw [eventsAgree, same.type, same.payload, same.target, Json.agrees_refl]
  simp

/-- Lists of events that are the same one by one agree. -/
theorem allEventsAgree_of_same
    {recorded emitted : List ServerEvent}
    (same : List.Forall₂ ServerEvent.Same recorded emitted) :
    allEventsAgree recorded emitted = true := by
  induction same with
  | nil => rfl
  | cons first rest inductionHypothesis =>
      rw [allEventsAgree, eventsAgree_of_same first, inductionHypothesis, Bool.and_self]

/-- A tick that comes to the recorded hash agrees with it. -/
@[simp] theorem check_self (strict : Bool) (tick : Tick) (hash : String) :
    check strict tick (some hash) hash = .ok .agrees := by
  rw [check, if_pos rfl]

end Verification

namespace ReplaySummary

/-- The totals of ticks that all agree with their record. -/
def allMatching (ticks : Nat) : ReplaySummary := { ticks := ticks, hashMatches := ticks }

/-- One more tick that agrees counts as a match. -/
@[simp] theorem count_agrees (ticks : Nat) (tick : Tick) :
    (allMatching ticks).count tick true (.ok .agrees) = allMatching (ticks + 1) := rfl

end ReplaySummary
end Chronicle

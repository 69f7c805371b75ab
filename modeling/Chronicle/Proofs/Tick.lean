import Chronicle.Tick
import Mathlib.Data.List.Forall2

/-!
# What a tick does

A tick goes on by publishing events and by changing the state, so whatever both
preserve holds of the whole tick.  The state, the failures and the published
events do not depend on the sequence numbers: a tick that begins with an
earlier number comes to its end as well, and differs from the other in nothing
but the numbers.
-/

namespace Chronicle

namespace Numbering

/-- A number is issued as long as the limit has not been reached, and the
counter goes on by one. -/
theorem issue_eq_ok_iff {numbering after : Numbering} {sequence : Sequence} :
    numbering.issue = .ok (sequence, after) ↔
      numbering.next ≠ limit ∧ sequence = numbering.next ∧
        after.next.toNat = numbering.next.toNat + 1 := by
  obtain ⟨next⟩ := numbering
  obtain ⟨later⟩ := after
  have bound : next.toNat < 18446744073709551616 := next.toNat_lt
  have atLimit : next = limit ↔ next.toNat = 18446744073709551615 := by
    rw [← UInt64.toNat_inj]
    rfl
  simp only [issue]
  split
  · rename_i reached
    simp [reached]
  · rename_i below
    have room : next.toNat ≠ 18446744073709551615 := fun full => below (atLimit.2 full)
    have successor : (next + 1).toNat = next.toNat + 1 := by
      rw [UInt64.toNat_add]
      exact Nat.mod_eq_of_lt (by simp; omega)
    simp only [Except.ok.injEq, Prod.mk.injEq, mk.injEq, ne_eq, below, not_false_eq_true,
      true_and, ← UInt64.toNat_inj, successor]
    exact ⟨fun ⟨same, next⟩ => ⟨same.symm, next.symm⟩, fun ⟨same, next⟩ => ⟨same.symm, next.symm⟩⟩

/-- The only reason not to issue a number is that the limit has been reached. -/
theorem issue_eq_error_iff {numbering : Numbering} {error : LandError} :
    numbering.issue = .error error ↔ numbering.next = limit ∧ error = .sequenceOverflow := by
  simp only [issue]
  split
  · rename_i reached
    simp [reached, eq_comm]
  · rename_i below
    simp [below]

/-- One counter has issued no more numbers than another. -/
def Behind (behind ahead : Numbering) : Prop := behind.next.toNat ≤ ahead.next.toNat

/-- The counter goes on when a number is issued. -/
theorem behind_of_issue {numbering after : Numbering} {sequence : Sequence}
    (issued : numbering.issue = .ok (sequence, after)) : numbering.Behind after := by
  obtain ⟨_, _, successor⟩ := issue_eq_ok_iff.1 issued
  rw [Behind, successor]
  exact Nat.le_succ _

/-- A counter that is behind issues a number when the other one does, and stays
behind. -/
theorem Behind.issue
    {behind ahead after : Numbering}
    {sequence : Sequence}
    (order : behind.Behind ahead)
    (issued : ahead.issue = .ok (sequence, after)) :
    ∃ other next, behind.issue = .ok (other, next) ∧ next.Behind after := by
  obtain ⟨below, _, successor⟩ := issue_eq_ok_iff.1 issued
  have bound : ahead.next.toNat < 18446744073709551616 := ahead.next.toNat_lt
  cases result : behind.issue with
  | error reason =>
      exfalso
      obtain ⟨reached, _⟩ := issue_eq_error_iff.1 result
      refine below (UInt64.toNat_inj.1 (Nat.le_antisymm ?_ ?_))
      · exact Nat.le_of_lt_succ bound
      · rw [← reached]
        exact order
  | ok pair =>
      obtain ⟨other, next⟩ := pair
      obtain ⟨_, _, nextSuccessor⟩ := issue_eq_ok_iff.1 result
      refine ⟨other, next, rfl, ?_⟩
      rw [Behind, nextSuccessor, successor]
      exact Nat.succ_le_succ order

end Numbering

namespace Recording.ServerEvent

/-- Two events have the same type, payload and target. -/
structure Same (first second : ServerEvent) : Prop where
  type : first.type = second.type
  payload : first.payload = second.payload
  target : first.target = second.target

end Recording.ServerEvent

namespace TickRun

variable {σ : Type}

/-- Publishes one event under a number. -/
abbrev withEvent (tick : Tick) (run : TickRun σ) (event : Event) (sequence : Sequence)
    (numbering : Numbering) : TickRun σ :=
  { run with
    numbering := numbering
    recorded := run.recorded ++ [record tick sequence event]
    heard := run.heard ++ [event] }

/-! ## Whatever a tick preserves -/

section Preserved

variable {motive : TickRun σ → Prop} {tick : Tick}

/-- What each publication preserves holds after some events. -/
theorem publish_preserves
    (published : ∀ run event sequence numbering,
      run.numbering.issue = .ok (sequence, numbering) → motive run →
        motive (withEvent tick run event sequence numbering))
    (events : List Event)
    {run : TickRun σ}
    (holds : motive run) :
    motive (publish tick run events).2 := by
  induction events generalizing run with
  | nil => exact holds
  | cons event rest inductionHypothesis =>
      rw [publish]
      split
      · exact holds
      · rename_i sequence numbering issued
        exact inductionHypothesis (published run event sequence numbering issued holds)

/-- What publications and changes of the state preserve holds after some
effects. -/
theorem performAll_preserves
    (changed : ∀ run state failures, motive run →
      motive { run with state := state, failures := failures })
    (published : ∀ run event sequence numbering,
      run.numbering.issue = .ok (sequence, numbering) → motive run →
        motive (withEvent tick run event sequence numbering))
    (effects : List (Effect σ Unit))
    {run : TickRun σ}
    (holds : motive run) :
    motive (performAll tick run effects).2 := by
  induction effects generalizing run with
  | nil => exact holds
  | cons effect rest inductionHypothesis =>
      have performed : motive (run.perform tick effect).2 :=
        publish_preserves published _ (changed run _ _ holds)
      rw [performAll]
      split
      · rename_i next result
        rw [result] at performed
        exact inductionHypothesis performed
      · rename_i next result
        rw [result] at performed
        exact performed

/-- Everything that is published carries the record of a target. -/
theorem exists_target_of_performAll
    {effects : List (Effect σ Unit)}
    {run final : TickRun σ}
    {result : Except LandError Unit}
    (before : ∀ event ∈ run.recorded, ∃ target : Target, event.target = target.toRecord)
    (performed : performAll tick run effects = (result, final)) :
    ∀ event ∈ final.recorded, ∃ target : Target, event.target = target.toRecord := by
  have preserved : ∀ event ∈ (performAll tick run effects).2.recorded, ∃ target : Target,
      event.target = target.toRecord := by
    refine performAll_preserves
      (motive := fun run => ∀ event ∈ run.recorded, ∃ target : Target,
        event.target = target.toRecord)
      (fun _ _ _ holds => holds) (fun _ event _ _ _ holds other member => ?_) effects before
    rcases List.mem_append.1 member with earlier | last
    · exact holds other earlier
    · obtain rfl := List.mem_singleton.1 last
      exact ⟨event.target, rfl⟩
  rwa [performed] at preserved

/-- The counter only goes on. -/
theorem behind_of_performAll
    {effects : List (Effect σ Unit)}
    {run final : TickRun σ}
    {result : Except LandError Unit}
    (performed : performAll tick run effects = (result, final)) :
    run.numbering.Behind final.numbering := by
  have preserved : run.numbering.Behind (performAll tick run effects).2.numbering :=
    performAll_preserves
      (motive := fun later => run.numbering.Behind later.numbering)
      (fun _ _ _ behind => behind)
      (fun _ _ _ _ issued behind => Nat.le_trans behind (Numbering.behind_of_issue issued))
      effects (Nat.le_refl _)
  rwa [performed] at preserved

end Preserved

/-- Only a lack of numbers aborts a tick, and that is fatal. -/
theorem isFatal_of_performAll
    {tick : Tick}
    {run final : TickRun σ}
    {effects : List (Effect σ Unit)}
    {error : LandError}
    (aborted : performAll tick run effects = (.error error, final)) :
    error.isFatal = true := by
  have published (events : List Event) {run final : TickRun σ} {error : LandError}
      (aborted : publish tick run events = (.error error, final)) : error.isFatal = true := by
    induction events generalizing run with
    | nil => exact nomatch (Prod.mk.inj aborted).1
    | cons event rest inductionHypothesis =>
        rw [publish] at aborted
        split at aborted
        · rename_i reason refused
          obtain rfl := Except.error.inj (Prod.mk.inj aborted).1
          rw [(Numbering.issue_eq_error_iff.1 refused).2]
          rfl
        · exact inductionHypothesis aborted
  induction effects generalizing run with
  | nil => exact nomatch (Prod.mk.inj aborted).1
  | cons effect rest inductionHypothesis =>
      rw [performAll] at aborted
      split at aborted
      · exact inductionHypothesis aborted
      · rename_i reason next performed
        obtain rfl := Except.error.inj (Prod.mk.inj aborted).1
        exact published _ performed

/-! ## Ticks with other numbers -/

/-- One tick has come as far as another, with no more numbers issued. -/
structure Follows (behind ahead : TickRun σ) : Prop where
  state : behind.state = ahead.state
  failures : behind.failures = ahead.failures
  heard : behind.heard = ahead.heard
  numbering : behind.numbering.Behind ahead.numbering
  recorded : List.Forall₂ Recording.ServerEvent.Same ahead.recorded behind.recorded

namespace Follows

variable {behind ahead final : TickRun σ} {tick : Tick}

/-- The events that one tick publishes, the other publishes as well. -/
theorem publish
    (events : List Event)
    (follows : behind.Follows ahead)
    (done : TickRun.publish tick ahead events = (.ok (), final)) :
    ∃ other, TickRun.publish tick behind events = (.ok (), other) ∧ other.Follows final := by
  induction events generalizing behind ahead with
  | nil =>
      obtain ⟨-, rfl⟩ := Prod.mk.inj done
      exact ⟨behind, rfl, follows⟩
  | cons event rest inductionHypothesis =>
      rw [TickRun.publish] at done
      split at done
      · exact nomatch (Prod.mk.inj done).1
      · rename_i sequence numbering issued
        obtain ⟨earlier, next, earlierIssued, order⟩ := follows.numbering.issue issued
        have step : (withEvent tick behind event earlier next).Follows
            (withEvent tick ahead event sequence numbering) :=
          { state := follows.state
            failures := follows.failures
            heard := congrArg (· ++ [event]) follows.heard
            numbering := order
            recorded := List.rel_append follows.recorded (.cons ⟨rfl, rfl, rfl⟩ .nil) }
        obtain ⟨other, result, last⟩ := inductionHypothesis step done
        refine ⟨other, ?_, last⟩
        rw [TickRun.publish, earlierIssued]
        exact result

/-- An effect does the same to both. -/
theorem perform
    (effect : Effect σ Unit)
    (follows : behind.Follows ahead)
    (done : ahead.perform tick effect = (.ok (), final)) :
    ∃ other, behind.perform tick effect = (.ok (), other) ∧ other.Follows final := by
  rw [TickRun.perform] at done ⊢
  rw [follows.state]
  refine publish _ ?_ done
  exact ⟨rfl, congrArg (· + _) follows.failures, follows.heard, follows.numbering,
    follows.recorded⟩

/-- When all effects of one tick are performed, they can be performed with the
earlier numbers too, and the other tick has followed to the end. -/
theorem performAll
    (effects : List (Effect σ Unit))
    (follows : behind.Follows ahead)
    (done : TickRun.performAll tick ahead effects = (.ok (), final)) :
    ∃ other, TickRun.performAll tick behind effects = (.ok (), other) ∧ other.Follows final := by
  induction effects generalizing behind ahead with
  | nil =>
      obtain ⟨-, rfl⟩ := Prod.mk.inj done
      exact ⟨behind, rfl, follows⟩
  | cons effect rest inductionHypothesis =>
      rw [TickRun.performAll] at done
      split at done
      · rename_i next performed
        obtain ⟨other, result, step⟩ := follows.perform effect performed
        rw [TickRun.performAll, result]
        exact inductionHypothesis step done
      · exact nomatch (Prod.mk.inj done).1

end Follows
end TickRun
end Chronicle
